import DeclCheck.Proofs.Check.Chain
import DeclCheck.Proofs.Check.Lowering
import DeclCheck.Proofs.Check.Moves

/-!
# What a step of the analysis reports

Each step of an analysis keeps what was reported, adds semantic errors, and adds none exactly if a rule
holds. The rule of steps in a row is the conjunction of their rules. A step also says which scopes it
leaves, so the rule of a later step can speak about what was entered before.
-/
namespace DeclCheck

/-- An error of the analysis about a file. -/
structure Diagnostic.IsSemantic (f : FileId) (d : Diagnostic) : Prop where
  family : d.code.family? = some (Text.ofString "SEM")
  error : d.isError = true
  inFile : d.InFile f

/-- The scope of each declaration that has one. -/
abbrev Scoping := DeclId → Option Scope

/-- The scopes of an analysis. -/
abbrev Analysis.view (a : Analysis) : Scoping := a.table.scopeOf?

theorem Analysis.view_inside (a : Analysis) (scope : Trace.EventScope) (name : Text) :
    (a.inside scope name).view = a.view := rfl

/-- What was lowered is sound, and owners lead to their scopes. -/
structure Analysis.Sound (tree : Tree) (a : Analysis) : Prop where
  lowering : a.lowering.Sound tree
  linked : a.table.Backlinked

theorem Analysis.Sound.initial (tree : Tree) {ds : Array Diagnostic} :
    ({ table := .ofTree tree, diagnostics := ds } : Analysis).Sound tree :=
  ⟨.initial tree, ScopeTable.ofTree_backlinked tree⟩

theorem Analysis.Sound.inside {tree : Tree} {a : Analysis} (h : a.Sound tree) (scope : Trace.EventScope)
    (name : Text) : (a.inside scope name).Sound tree :=
  ⟨h.lowering, h.linked⟩

/-- A loaded program: its declarations form a forest and stand in one file, and a name of the top level
stands for a declaration of that name without a parent. -/
structure Program.Sound (f : FileId) (p : Program) : Prop where
  built : p.tree.Built 0
  inFile : p.tree.InFile f
  globals : ∀ (n : NameId) (id : DeclId), p.globals.lookup? n = some id →
    id ∈ p.tree.loose ∧ p.tree.nameIdOf id = n

/-- From `a` an analysis comes to `b`, where the scopes are `view`; it reports nothing exactly if the
rule `ok` holds. -/
structure Judged (p : Program) (f : FileId) (a : Analysis) (ok : Prop) (view : Scoping)
    (b : Analysis) : Prop where
  table : b.view = view
  linked : b.table.Backlinked
  lowering : Lowering.After p.tree a.lowering b.lowering
  reports : ∃ ds : List Diagnostic, b.diagnostics.toList = a.diagnostics.toList ++ ds ∧
    (ds = [] ↔ ok) ∧ ∀ d ∈ ds, d.IsSemantic f

section Judged

variable {p : Program} {f : FileId} {a b c : Analysis} {ok ok' : Prop} {view view' : Scoping}

theorem Judged.sound (h : Judged p f a ok view b) : b.Sound p.tree := ⟨h.lowering.sound, h.linked⟩

/-- Steps that report nothing. -/
theorem Judged.silent (hv : b.view = view) (hb : b.table.Backlinked)
    (ha : Lowering.After p.tree a.lowering b.lowering) (hd : b.diagnostics = a.diagnostics) :
    Judged p f a True view b :=
  ⟨hv, hb, ha, [], by simp [hd], by simp, by simp⟩

theorem Judged.refl (ha : a.Sound p.tree) : Judged p f a True a.view a :=
  .silent rfl ha.linked (.refl ha.lowering) rfl

theorem Judged.trans (h : Judged p f a ok view b) (k : Judged p f b ok' view' c) :
    Judged p f a (ok ∧ ok') view' c := by
  obtain ⟨ds, hds, hok, hsem⟩ := h.reports
  obtain ⟨es, hes, hok', hsem'⟩ := k.reports
  refine ⟨k.table, k.linked, h.lowering.trans k.lowering, ds ++ es, ?_, ?_, ?_⟩
  · rw [hes, hds, List.append_assoc]
  · rw [List.append_eq_nil_iff, hok, hok']
  · intro d hd
    exact (List.mem_append.mp hd).elim (hsem d) (hsem' d)

theorem Judged.congr (h : Judged p f a ok view b) (ho : ok ↔ ok') (hv : view = view') :
    Judged p f a ok' view' b :=
  ⟨h.table.trans hv, h.linked, h.lowering, by simpa only [ho] using h.reports⟩

/-- Moments and bodies do not matter. -/
theorem Judged.keep (h : Judged p f a ok view b) (ht : c.table = b.table)
    (hl : c.lowering = b.lowering) (hd : c.diagnostics = b.diagnostics) :
    Judged p f a ok view c := by
  refine ⟨?_, ht ▸ h.linked, hl ▸ h.lowering, hd ▸ h.reports⟩
  rw [Analysis.view, ht]
  exact h.table

/-- Steps inside a span are judged as they are outside of it. -/
theorem Judged.outside {scope : Trace.EventScope} {name : Text} (h : Judged p f (a.inside scope name) ok view b) :
    Judged p f a ok view (a.outside b) :=
  ⟨h.table, h.linked, h.lowering, h.reports⟩

end Judged

namespace AnalysisM

section Reports

variable {p : Program} {f : FileId} {a : Analysis}

theorem ends_decl {id : DeclId} {d : Decl} (hd : p.tree.decl? id = some d)
    {post : Decl → Analysis → Prop} : Ends (decl p id) a post ↔ post d a := by
  unfold decl
  rw [hd]
  exact Iff.rfl

theorem report_judged (ha : a.Sound p.tree) {d : Diagnostic} (hd : d.IsSemantic f) :
    Ends (report d) a fun _ b => Judged p f a False a.view b := by
  unfold report
  rw [ends_modify]
  exact ⟨rfl, ha.linked, .refl ha.lowering, [d], by simp, by simp, by simpa using hd⟩

theorem point_judged (ha : a.Sound p.tree) (name detail : Text) :
    Ends (point name detail) a fun _ b => Judged p f a True a.view b := by
  unfold point
  rw [ends_modify]
  exact .silent rfl ha.linked (.refl ha.lowering) rfl

theorem signature_judged (ht : p.tree.TypesOrdered) (ha : a.Sound p.tree) (id : DeclId) :
    Ends (signature p id) a fun _ b => Judged p f a True a.view b := by
  unfold signature
  rw [ends_modifyGet]
  exact .silent rfl ha.linked (Lowering.signature_spec ht ha.lowering id).1 rfl

theorem sameSignature_judged (ht : p.tree.TypesOrdered) (ha : a.Sound p.tree)
    (x y : DeclId) : Ends (sameSignature p x y) a fun r b =>
      r = p.tree.sameSignature x y ∧ Judged p f a True a.view b := by
  unfold sameSignature
  rw [ends_modifyGet]
  obtain ⟨hafter, hsame⟩ := Lowering.sameSignature_spec ht ha.lowering x y
  exact ⟨hsame, .silent rfl ha.linked hafter rfl⟩

theorem isSemantic_error {code : Code} {span : Span} {message : Text}
    (hc : code.family? = some (Text.ofString "SEM")) (hs : span.file = f) :
    (Diagnostic.error code span message).IsSemantic f :=
  ⟨hc, rfl, Diagnostic.inFile_error hs⟩

theorem isSemantic_withNote {d : Diagnostic} (hd : d.IsSemantic f) {span : Span}
    (hs : span.file = f) (message : Text) : (d.withNote span message).IsSemantic f := by
  refine ⟨hd.family, hd.error, hd.inFile.primary, ?_⟩
  intro n hn
  rcases List.mem_append.mp hn with hn | hn
  · exact hd.inFile.notes n hn
  · rw [List.mem_singleton.mp hn]
    exact hs

variable (hp : p.Sound f) (ha : a.Sound p.tree)
include hp ha

theorem reportConflict_judged {id prev : DeclId} {d e : Decl} (hd : p.tree.decl? id = some d)
    (he : p.tree.decl? prev = some e) :
    Ends (reportConflict p id prev) a fun _ b => Judged p f a False a.view b := by
  unfold reportConflict
  rw [ends_bind, ends_decl hd, ends_bind, ends_decl he]
  exact report_judged ha (isSemantic_withNote (isSemantic_error rfl (hp.inFile.decls id d hd).1)
    (hp.inFile.decls prev e he).1 _)

theorem reportOverride_judged {id base : DeclId} {d e : Decl} (hd : p.tree.decl? id = some d)
    (he : p.tree.decl? base = some e) :
    Ends (reportOverride p id base) a fun _ b => Judged p f a False a.view b := by
  have hspan := (hp.inFile.decls id d hd).1
  unfold reportOverride
  rw [ends_bind, ends_decl hd]
  dsimp only
  rw [ends_bind]
  refine (signature_judged (f := f) hp.built.typesOrdered ha base).mono fun sig b hb => ?_
  have hfinish : ∀ {x : Diagnostic}, x.IsSemantic f →
      Ends (report x) b fun _ c => Judged p f a False a.view c := fun hx =>
    (report_judged hb.sound hx).mono fun _ c hc =>
      (hb.trans hc).congr (by simp) hb.table
  cases sig with
  | none => exact hfinish (isSemantic_error rfl hspan)
  | some sig =>
    dsimp only
    rw [ends_bind, ends_decl he, ends_bind, ends_get]
    exact hfinish (isSemantic_withNote (isSemantic_error rfl hspan) (hp.inFile.decls base e he).1 _)

omit hp in
theorem reportNotDeclared_judged {ident : Ident} (hi : ident.span.file = f) (kind : LookupKind) :
    Ends (reportNotDeclared p ident kind) a fun _ b => Judged p f a False a.view b :=
  report_judged ha (isSemantic_error rfl hi)

theorem reportNotImplemented_judged {cls method : DeclId} {iface : Ident} {m : Decl}
    (hi : iface.span.file = f) (hm : p.tree.decl? method = some m) :
    Ends (reportNotImplemented p cls iface method) a fun _ b => Judged p f a False a.view b := by
  unfold reportNotImplemented
  rw [ends_bind, ends_decl hm]
  exact report_judged ha (isSemantic_withNote (isSemantic_error rfl hi)
    (hp.inFile.decls method m hm).1 _)

end Reports

/-! ## Scopes -/

section Scopes

variable {p : Program} {f : FileId} {a : Analysis} {owner : DeclId} {s : Scope}

theorem beginScope_judged (ha : a.Sound p.tree) (hs : a.view owner = some s)
    (hfree : s.filled = false) : Ends (beginScope owner) a fun _ b =>
      Judged p f a True (Function.update a.view owner (some { s with filled := true })) b := by
  have hbegin : a.table.begin owner =
      .ok (a.table.modifyScope owner fun s => { s with filled := true }) := by
    have hscope : a.table.scopeOf? owner = some s := hs
    simp [ScopeTable.begin, hscope, hfree]
  unfold beginScope
  rw [ends_bind, ends_get, hbegin, ends_modify]
  exact .silent (ha.linked.modifyScope_eq_update hs _) (ha.linked.modifyScope owner fun _ => rfl)
    (.refl ha.lowering) rfl

theorem ends_lookup? {name : NameId} {post : Option DeclId → Analysis → Prop}
    (hs : a.view owner = some s) :
    Ends (lookup? owner name) a post ↔ post (s.lookup? name) a := by
  have hbind : (a.view owner).bind (·.lookup? name) = s.lookup? name := by
    rw [hs]
    rfl
  rw [← hbind]
  exact Iff.rfl

theorem bind_judged (ha : a.Sound p.tree) (hs : a.view owner = some s) (name : NameId)
    (id : DeclId) : Ends (AnalysisM.bind owner name id) a fun _ b =>
      Judged p f a True (Function.update a.view owner (some (s.enter name id))) b := by
  unfold AnalysisM.bind
  rw [ends_modify]
  exact .silent (ha.linked.modifyScope_eq_update hs _)
    (ha.linked.modifyScope owner fun s => s.enter_owner name id) (.refl ha.lowering) rfl

theorem enter?_judged (ha : a.Sound p.tree) (hs : a.view owner = some s) {id : DeclId}
    (hid : (p.tree.decl? id).isSome) : Ends (enter? p owner id) a fun r b =>
      r = s.lookup? (p.tree.nameIdOf id) ∧
      Judged p f a True (Function.update a.view owner (some (s.enter (p.tree.nameIdOf id) id))) b := by
  obtain ⟨d, hd⟩ := Option.isSome_iff_exists.mp hid
  unfold enter?
  rw [ends_bind, ends_decl hd, ends_bind, ends_lookup? hs, ← Tree.nameIdOf_eq hd]
  cases h : s.lookup? (p.tree.nameIdOf id) with
  | some prev =>
    refine ⟨rfl, .silent ?_ ha.linked (.refl ha.lowering) rfl⟩
    rw [Scope.enter_eq_self h, Function.eq_update_self_iff, hs]
  | none =>
    dsimp only
    rw [ends_bind]
    exact (bind_judged ha hs _ id).mono fun _ b hb => ⟨rfl, hb⟩

/-- A member whose name is free is entered without a report. -/
theorem enterMember_judged (hp : p.Sound f) (ha : a.Sound p.tree)
    (hs : a.view owner = some s) (hn : s.Found p.tree) {id : DeclId}
    (hid : (p.tree.decl? id).isSome) :
    Ends (enterMember p owner id) a fun _ b =>
      Judged p f a (s.lookup? (p.tree.nameIdOf id) = none)
        (Function.update a.view owner (some (s.enter (p.tree.nameIdOf id) id))) b := by
  obtain ⟨d, hd⟩ := Option.isSome_iff_exists.mp hid
  unfold enterMember
  rw [ends_bind]
  refine (enter?_judged (f := f) ha hs hid).mono fun r b ⟨hr, hb⟩ => ?_
  subst hr
  cases h : s.lookup? (p.tree.nameIdOf id) with
  | none => exact hb.congr (by simp) rfl
  | some prev =>
    obtain ⟨e, he⟩ := Option.isSome_iff_exists.mp (hn _ prev h)
    exact (reportConflict_judged hp hb.sound hd he).mono fun _ c hc =>
      (hb.trans hc).congr (by simp) hb.table

end Scopes

/-! ## Loops -/

/-- The rule of a list, where each element is judged after those before it. -/
def Along {σ α : Type} (g : σ → α → σ) (ok : σ → α → Prop) : σ → List α → Prop
  | _, [] => True
  | s, x :: xs => ok s x ∧ Along g ok (g s x) xs

theorem along_iff {σ α : Type} {g : σ → α → σ} {ok : σ → α → Prop} {s : σ} {xs : List α} :
    Along g ok s xs ↔ ∀ pre x post, xs = pre ++ x :: post → ok (pre.foldl g s) x := by
  induction xs generalizing s with
  | nil => simp [Along]
  | cons y ys ih =>
    rw [Along, ih]
    constructor
    · rintro ⟨hy, hys⟩ pre x post h
      cases pre with
      | nil =>
        obtain ⟨rfl, rfl⟩ := List.cons.inj h
        exact hy
      | cons z pre =>
        obtain ⟨rfl, rfl⟩ := List.cons.inj h
        exact hys pre x post rfl
    · intro h
      refine ⟨h [] y ys rfl, fun pre x post hys => ?_⟩
      exact h (y :: pre) x post (by rw [hys, List.cons_append])

section Loops

variable {p : Program} {f : FileId} {a : Analysis} {α : Type}

/-- A loop whose rounds change the scope of one declaration. -/
theorem forIn_judged {owner : DeclId} {body : α → PUnit → AnalysisM (ForInStep PUnit)}
    {xs : List α} (g : Scope → α → Scope) (ok : Scope → α → Prop) (inv : Scope → Prop)
    (hbody : ∀ x ∈ xs, ∀ (a : Analysis) (s : Scope), a.Sound p.tree →
      a.view owner = some s → inv s → inv (g s x) ∧ Ends (body x ⟨⟩) a fun r b =>
        r = .yield ⟨⟩ ∧ Judged p f a (ok s x) (Function.update a.view owner (some (g s x))) b)
    {s : Scope} (ha : a.Sound p.tree) (hs : a.view owner = some s) (hi : inv s) :
    Ends (forIn xs PUnit.unit body) a fun _ b =>
      Judged p f a (Along g ok s xs) (Function.update a.view owner (some (xs.foldl g s))) b := by
  induction xs generalizing a s with
  | nil =>
    refine Judged.silent ?_ ha.linked (.refl ha.lowering) rfl
    rw [List.foldl_nil, Function.eq_update_self_iff, hs]
  | cons x xs ih =>
    obtain ⟨hinv, hx⟩ := hbody x (List.mem_cons_self ..) a s ha hs hi
    rw [ends_forIn_cons]
    refine hx.mono fun r b ⟨hr, hb⟩ => ?_
    subst hr
    have hview : b.view owner = some (g s x) := by rw [hb.table, Function.update_self]
    refine (ih (fun y hy => hbody y (List.mem_cons_of_mem _ hy)) hb.sound hview hinv).mono
      fun _ c hc => ?_
    refine (hb.trans hc).congr Iff.rfl ?_
    rw [hb.table, Function.update_idem, List.foldl_cons]

/-- A loop whose rounds leave the scopes. -/
theorem forIn_judged_of_view {body : α → PUnit → AnalysisM (ForInStep PUnit)} {xs : List α}
    {view : Scoping} (ok : α → Prop)
    (hbody : ∀ x ∈ xs, ∀ a : Analysis, a.Sound p.tree → a.view = view →
      Ends (body x ⟨⟩) a fun r b => r = .yield ⟨⟩ ∧ Judged p f a (ok x) view b)
    (ha : a.Sound p.tree) (hv : a.view = view) :
    Ends (forIn xs PUnit.unit body) a fun _ b => Judged p f a (∀ x ∈ xs, ok x) view b := by
  induction xs generalizing a with
  | nil => exact (Judged.refl ha).congr (by simp) hv
  | cons x xs ih =>
    rw [ends_forIn_cons]
    refine (hbody x (List.mem_cons_self ..) a ha hv).mono fun r b ⟨hr, hb⟩ => ?_
    subst hr
    refine (ih (fun y hy => hbody y (List.mem_cons_of_mem _ hy)) hb.sound hb.table).mono
      fun _ c hc => ?_
    exact (hb.trans hc).congr (by simp) rfl

end Loops

end AnalysisM

end DeclCheck
