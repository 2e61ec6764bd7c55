import DeclCheck.Proofs.Check.Order

/-!
# Every scope is filled once

The check of a loaded file comes to its end without a fault, and then the scopes that were filled are those of
all classes, interfaces and functions but the methods of interfaces. The walks of a check are bounded where
they are run; in a loaded file they go from larger to smaller numbers, or meet a class once, so that the bounds
are never met.
-/
namespace DeclCheck

theorem Scope.enterAll_filled (t : Tree) (s : Scope) (ids : List DeclId) :
    (s.enterAll t ids).filled = s.filled := by
  induction ids generalizing s with
  | nil => rfl
  | cons id ids ih =>
    refine (ih _).trans ?_
    dsimp only [enter]
    split <;> rfl

/-! ## Walks that come to their ends -/

theorem Tree.Built.lt_of_mem_children {t : Tree} {w : Nat} (h : t.Built w) {p c : Nat}
    (hc : c ∈ t.children p) : c < p := (h.child p c hc).1

namespace AnalysisM

variable {p : Program}

theorem forIn_congr {α β : Type} {xs : List α} {b : β} {f g : α → β → AnalysisM (ForInStep β)}
    (h : ∀ x ∈ xs, ∀ b, f x b = g x b) : forIn xs b f = forIn xs b g := by
  induction xs generalizing b with
  | nil => rfl
  | cons x xs ih =>
    rw [List.forIn_cons, List.forIn_cons, h x (List.mem_cons_self ..) b]
    refine bind_congr fun r => ?_
    cases r with
    | done b => rfl
    | yield b => exact ih fun y hy => h y (List.mem_cons_of_mem _ hy)

/-- Declarations inside others have smaller numbers, so a depth above the number of a declaration is enough. -/
theorem analyzeWithin_congr (hb : p.tree.Built 0) {m n id : Nat} (hm : id < m) (hn : id < n) :
    analyzeWithin p m id = analyzeWithin p n id := by
  induction m generalizing n id with
  | zero => omega
  | succ m ih =>
    obtain ⟨n, rfl⟩ : ∃ k, n = k + 1 := ⟨n - 1, by omega⟩
    unfold analyzeWithin
    cases hd : p.tree.decl? id with
    | none => rfl
    | some d =>
      have hbelow : ∀ c ∈ p.tree.children id, analyzeWithin p m c = analyzeWithin p n c := by
        intro c hc
        have hlt := hb.lt_of_mem_children hc
        exact ih (by omega) (by omega)
      refine congrArg (inSpan _ _) (funext fun _ => ?_)
      cases hsub : d.subject with
      | «variable» type => rfl
      | interface ms => rfl
      | «class» c =>
        rw [Tree.children_of_subject hd hsub] at hbelow
        refine bind_congr fun _ => ?_
        refine congrArg (· >>= _) (forIn_congr fun c hc _ => ?_)
        rw [hbelow c hc]
      | function g =>
        rw [Tree.children_of_subject hd hsub] at hbelow
        dsimp only
        split
        · rfl
        · refine bind_congr fun _ => ?_
          refine congrArg (· >>= _) (forIn_congr fun formal hf _ => ?_)
          refine bind_congr fun r => ?_
          cases r with
          | some prev => rfl
          | none =>
            dsimp only
            rw [hbelow formal hf]

theorem baseName?_congr {t : Tree} (ht : t.TypesOrdered) {m n id : Nat} (hm : id < m) (hn : id < n) :
    baseName? t m id = baseName? t n id := by
  induction m generalizing n id with
  | zero => omega
  | succ m ih =>
    obtain ⟨n, rfl⟩ : ∃ k, n = k + 1 := ⟨n - 1, by omega⟩
    unfold baseName?
    cases he : t.type? id with
    | none => rfl
    | some e =>
      cases e with
      | primitive prim span => rfl
      | named ident => rfl
      | array elem span =>
        have hlt := ht id elem span he
        exact ih (by omega) (by omega)

end AnalysisM

theorem Lowering.typeWithin_congr {t : Tree} (ht : t.TypesOrdered) (l : Lowering) {m n id : Nat}
    (hm : id < m) (hn : id < n) : typeWithin t m l id = typeWithin t n l id := by
  induction m generalizing n id with
  | zero => omega
  | succ m ih =>
    obtain ⟨n, rfl⟩ : ∃ k, n = k + 1 := ⟨n - 1, by omega⟩
    unfold typeWithin
    cases l.lowered.lookup id with
    | some type => rfl
    | none =>
      cases he : t.type? id with
      | none => rfl
      | some e =>
        cases e with
        | primitive prim span => rfl
        | named ident => rfl
        | array elem span =>
          have hlt := ht id elem span he
          dsimp only
          rw [ih (n := n) (by omega) (by omega)]

namespace Program

variable {p : Program}

/-- A class is met once, so as many steps as there are declarations are enough. -/
theorem climb_congr {visited : List DeclId} (hnodup : visited.Nodup)
    (hclass : ∀ id ∈ visited, (p.tree.class? id).isSome) {m n : Nat} (base : TypeExprId)
    (hm : p.tree.decls.size < m + visited.length) (hn : p.tree.decls.size < n + visited.length) :
    p.climb m visited base = p.climb n visited base := by
  have hlength := length_le_of_classes hnodup hclass
  induction m generalizing visited n base with
  | zero => omega
  | succ m ih =>
    obtain ⟨n, rfl⟩ : ∃ k, n = k + 1 := ⟨n - 1, by omega⟩
    unfold climb
    by_cases hzero : base = 0
    · rw [if_pos hzero, if_pos hzero]
    rw [if_neg hzero, if_neg hzero]
    cases p.tree.namedType? base with
    | none => rfl
    | some ident =>
      dsimp only
      cases p.globals.lookup? ident.name with
      | none => rfl
      | some id =>
        dsimp only
        cases hc : p.tree.class? id with
        | none => rfl
        | some c =>
          dsimp only
          by_cases hmet : visited.contains id = true
          · rw [if_pos hmet, if_pos hmet]
          · -- The class joins those that were met, so the bound and their number keep their sum.
            have hfresh : (id :: visited).Nodup := List.nodup_cons.mpr ⟨by simpa using hmet, hnodup⟩
            have hclasses : ∀ i ∈ id :: visited, (p.tree.class? i).isSome :=
              List.forall_mem_cons.mpr ⟨by rw [hc]; rfl, hclass⟩
            rw [if_neg hmet, if_neg hmet, ih hfresh hclasses (n := n) c.base
              (by rw [List.length_cons]; omega) (by rw [List.length_cons]; omega)
              (length_le_of_classes hfresh hclasses)]

/-- The walks of a check do not go round in circles, and larger bounds on them make no difference. -/
structure WalksEnd (p : Program) : Prop where
  inside : WellFounded fun c d => c ∈ p.tree.children d
  elements : WellFounded fun e a => ∃ span, p.tree.type? a = some (.array e span)
  analysis : ∀ (bound : Nat) (id : DeclId), p.tree.decls.size + 2 ≤ bound →
    AnalysisM.analyzeWithin p bound id = AnalysisM.analyze p id
  bases : ∀ (bound : Nat) (id : DeclId) (c : ClassDecl), p.tree.class? id = some c →
    p.tree.decls.size + 1 ≤ bound → p.climb bound [id] c.base = p.bases id c
  names : ∀ (bound : Nat) (id : TypeExprId), p.tree.types.size + 1 ≤ bound →
    AnalysisM.baseName? p.tree bound id = AnalysisM.baseName? p.tree (p.tree.types.size + 1) id
  types : ∀ (bound : Nat) (l : Lowering) (id : TypeExprId), p.tree.types.size + 1 ≤ bound →
    l.typeWithin p.tree bound id = l.type p.tree id

theorem walksEnd (hb : p.tree.Built 0) : p.WalksEnd := by
  have hordered := hb.typesOrdered
  refine ⟨?_, ?_, fun bound id hbound => ?_, fun bound id c hc hbound => ?_, fun bound id hbound => ?_,
    fun bound l id hbound => ?_⟩
  · exact Subrelation.wf (fun h => hb.lt_of_mem_children h) Nat.lt_wfRel.wf
  · exact Subrelation.wf (fun ⟨span, h⟩ => hordered _ _ span h) Nat.lt_wfRel.wf
  · -- Numbers without a declaration may exceed every bound, but they are answered at once.
    obtain ⟨k, rfl⟩ : ∃ k, bound = k + 1 := ⟨bound - 1, by omega⟩
    unfold AnalysisM.analyze
    cases hd : p.tree.decl? id with
    | none => simp only [AnalysisM.analyzeWithin, hd]
    | some d =>
      have hle := (Tree.decl?_le hd).2
      exact AnalysisM.analyzeWithin_congr hb (by omega) (by omega)
  · refine climb_congr (List.nodup_singleton id) (by simp [hc]) c.base ?_ ?_
    · exact Nat.lt_succ_of_lt hbound
    · exact Nat.lt_succ_of_lt (Nat.lt_succ_self _)
  · obtain ⟨k, rfl⟩ : ∃ k, bound = k + 1 := ⟨bound - 1, by omega⟩
    cases he : p.tree.type? id with
    | none => simp only [AnalysisM.baseName?, he]
    | some e =>
      have hle := Tree.type?_le he
      exact AnalysisM.baseName?_congr hordered (by omega) (by omega)
  · obtain ⟨k, rfl⟩ : ∃ k, bound = k + 1 := ⟨bound - 1, by omega⟩
    unfold Lowering.type
    cases he : p.tree.type? id with
    | none => simp only [Lowering.typeWithin, he]
    | some e =>
      have hle := Tree.type?_le he
      exact Lowering.typeWithin_congr hordered l (by omega) (by omega)

/-! ## The scopes that are filled -/

theorem mem_touched_iff {id j : DeclId} :
    j ∈ p.touched id ↔ j = id ∨ ∃ c, p.tree.class? id = some c ∧ j ∈ c.members := by
  unfold touched
  cases p.tree.class? id with
  | none => simp
  | some c => simp

/-- A declaration that lists another is a class or an interface, unless that is a variable. -/
theorem lister_cases (hb : p.tree.Built 0) {id q : DeclId} {d : Decl} (hd : p.tree.decl? id = some d)
    (hk : d.kind ≠ .variable) (hmem : id ∈ p.tree.children q) :
    (∃ c, p.tree.class? q = some c ∧ id ∈ c.members ∧ q ∈ p.tree.loose) ∨
      ∃ ms, p.tree.interface? q = some ms ∧ id ∈ ms := by
  cases he : p.tree.decl? q with
  | none => simp [Tree.children, he] at hmem
  | some e =>
    cases hsub : e.subject with
    | «variable» type =>
      rw [Tree.children_of_subject he hsub] at hmem
      cases hmem
    | «class» c =>
      rw [Tree.children_of_subject he hsub] at hmem
      refine .inl ⟨c, by simp [Tree.class?, he, Decl.class?, hsub], hmem, ?_⟩
      exact hb.mem_loose_of_namesType he (by rw [Decl.kind, hsub]; rfl)
    | interface ms =>
      rw [Tree.children_of_subject he hsub] at hmem
      exact .inr ⟨ms, by simp [Tree.interface?, he, Decl.interface?, hsub], hmem⟩
    | function g =>
      rw [Tree.children_of_subject he hsub] at hmem
      obtain ⟨_, hformals, _⟩ := hb.fits he hsub
      obtain ⟨type, htype⟩ := Option.isSome_iff_exists.mp (hformals id hmem)
      obtain ⟨d', hd', hvar⟩ := Tree.subject_of_variableType? htype
      cases hd'.symm.trans hd
      exact (hk (by rw [Decl.kind, hvar]; rfl)).elim

/-- The analysis of the top level comes to all classes, interfaces and functions but the methods of
interfaces. -/
theorem mem_loose_touched_iff (hb : p.tree.Built 0) {id : DeclId} {d : Decl}
    (hd : p.tree.decl? id = some d) (hk : d.kind ≠ .variable) :
    id ∈ p.tree.loose.flatMap p.touched ↔ ¬ ∃ i ms, p.tree.interface? i = some ms ∧ id ∈ ms := by
  simp only [List.mem_flatMap, mem_touched_iff]
  constructor
  · rintro ⟨x, hx, htouched⟩ ⟨i, ms, hi, hm⟩
    have hparent := (hb.child i id (Tree.children_of_interface? hi ▸ hm)).2
    rcases htouched with rfl | ⟨c, hc, hmem⟩
    · cases (Tree.mem_loose.mp hx).symm.trans hparent
      cases hi
    · -- The class and the interface that list it would be one declaration.
      have hparent' := (hb.child x id (Tree.children_of_class? hc ▸ hmem)).2
      cases hparent.symm.trans hparent'
      obtain ⟨e, he, hclass⟩ := Tree.subject_of_class? hc
      obtain ⟨e', he', hiface⟩ := Tree.subject_of_interface? hi
      cases he.symm.trans he'
      cases hclass.symm.trans hiface
  · intro hno
    have hparent : p.tree.parent? id = some d.parent := Tree.parent?_eq_some.mpr ⟨d, hd, rfl⟩
    by_cases hp : d.parent = 0
    · exact ⟨id, Tree.mem_loose.mpr (hp ▸ hparent), .inl rfl⟩
    · rcases lister_cases hb hd hk (hb.parent id d.parent hparent hp) with ⟨c, hc, hmem, hloose⟩ | hiface
      · exact ⟨d.parent, hloose, .inr ⟨c, hc, hmem⟩⟩
      · exact (hno ⟨d.parent, hiface⟩).elim

theorem filledBy_blank (ids : List DeclId) {id : DeclId} {d : Decl} (hd : p.tree.decl? id = some d)
    (hk : d.kind ≠ .variable) : ∃ s, p.filledBy ids p.blank id = some s ∧
      (s.filled = true ↔ id ∈ ids) ∧ (s.filled = false → s.entries = []) := by
  have hblank := ScopeTable.scopeOf?_ofTree hd
  rw [if_neg hk] at hblank
  obtain ⟨s, hs, hempty, hfree⟩ := hblank
  unfold filledBy blank
  split
  · next hid =>
    refine ⟨p.fill id s, by rw [hs]; rfl, ?_⟩
    have hfilled : (p.fill id s).filled = true := Scope.enterAll_filled _ _ _
    simp [hfilled, hid]
  · next hid => exact ⟨s, hs, by simp [hfree, hid], fun _ => hempty.entries⟩

end Program

/-- What a check leaves of a tree. It met no fault, arrays are made of types that stand before them, and the
scopes that are filled are those of all classes, interfaces and functions but the methods of interfaces. -/
structure CheckResult.Populated (tree : Tree) (r : CheckResult) : Prop where
  fault : r.fault = none
  arrays : ∀ (i : Nat) (t : Ty), r.analysis.lowering.store.types[i]? = some t → t.kind = .array →
    0 < t.elem ∧ t.elem < i
  scopes : ∀ (id : DeclId) (d : Decl), tree.decl? id = some d → d.kind ≠ .variable →
    ∃ s, r.analysis.table.scopeOf? id = some s ∧
      (s.filled = true ↔ ¬ ∃ i ms, tree.interface? i = some ms ∧ id ∈ ms) ∧
      (s.filled = false → s.entries = [])

theorem checkWith_populated {tree : Tree} {unit : UnitId} {g : Globals} {f : FileId} {span : Span}
    (hp : Program.Sound f ⟨tree, g⟩) (hunit : tree.unit? unit = some ⟨span, tree.loose⟩)
    (ds : Array Diagnostic) : (checkWith tree unit g ds none).Populated tree := by
  obtain ⟨_, b, hrun, hb⟩ := (AnalysisM.analyzeAll_judged_from hp ⟨span, tree.loose⟩ rfl none
    (a := { table := .ofTree tree, diagnostics := ds }) (.initial tree) rfl).run_eq
  have hcheck : checkWith tree unit g ds none = { globals := g, analysis := b } := by
    simp only [checkWith, hunit, hrun]
  rw [hcheck]
  refine ⟨rfl, fun i t ht hk => hb.sound.lowering.store.array_elem ht hk, fun id d hd hk => ?_⟩
  obtain ⟨s, hs, hfilled, hentries⟩ := Program.filledBy_blank (p := ⟨tree, g⟩)
    (tree.loose.flatMap (Program.touched ⟨tree, g⟩)) hd hk
  exact ⟨s, (congrFun hb.table id).trans hs,
    hfilled.trans (Program.mem_loose_touched_iff hp.built hd hk), hentries⟩

namespace Manifest

end Manifest

end DeclCheck
