import DeclCheck.Proofs.Check.Judging

/-!
# The rules of the analysis

What each check of the analysis asks for. A check of a class reads the scope of the class, so its rule
speaks about that scope.
-/
namespace DeclCheck

/-- The name at the bottom of a written type: of a named type, or of the elements of an array. -/
inductive Tree.BaseNamed (t : Tree) : TypeExprId → Ident → Prop
  | named {id : TypeExprId} {ident : Ident} (h : t.type? id = some (.named ident)) :
    t.BaseNamed id ident
  | array {id elem : TypeExprId} {span : Span} {ident : Ident}
    (h : t.type? id = some (.array elem span)) (he : t.BaseNamed elem ident) : t.BaseNamed id ident

theorem Tree.baseNamed_iff {t : Tree} {id : TypeExprId} {ident : Ident} : t.BaseNamed id ident ↔
    t.type? id = some (.named ident) ∨
      ∃ elem span, t.type? id = some (.array elem span) ∧ t.BaseNamed elem ident := by
  constructor
  · intro h
    cases h with
    | named h => exact .inl h
    | array h he => exact .inr ⟨_, _, h, he⟩
  · rintro (h | ⟨elem, span, h, he⟩)
    · exact .named h
    · exact .array h he

theorem Tree.baseName?_eq_some {t : Tree} (ht : t.TypesOrdered) {fuel id : Nat} {ident : Ident}
    (hf : id < fuel) : AnalysisM.baseName? t fuel id = some ident ↔ t.BaseNamed id ident := by
  induction fuel generalizing id with
  | zero => omega
  | succ fuel ih =>
    rw [AnalysisM.baseName?, baseNamed_iff]
    cases he : t.type? id with
    | none => simp
    | some e =>
      cases e with
      | primitive q span => simp
      | named i => simp
      | array elem span =>
        have hlt := ht id elem span he
        simp [ih (Nat.lt_of_lt_of_le hlt (Nat.le_of_lt_succ hf))]

/-- The name of a type, if it has one, is that of a class or an interface of the top level. -/
def Program.TypeKnown (p : Program) (type : TypeExprId) : Prop :=
  ∀ ident, p.tree.BaseNamed type ident → ∃ target d, p.globals.lookup? ident.name = some target ∧
    p.tree.decl? target = some d ∧ d.kind.namesType = true

section Rules

-- What is found under a name in the scope of a class.
variable (p : Program) (look : NameId → Option DeclId)

/-- What has the name of a member is a function with the signature of the member. -/
def Program.Overridden (member : DeclId) : Prop :=
  ∀ e, look (p.tree.nameIdOf member) = some e → p.tree.sameSignature e member = true

/-- There is a function with the name and the signature of a method. -/
def Program.Implemented (method : DeclId) : Prop :=
  ∃ e, look (p.tree.nameIdOf method) = some e ∧ p.tree.sameSignature e method = true

/-- A clause names an interface whose methods are all there. -/
def Program.Conforms (type : TypeExprId) : Prop :=
  ∀ ident, p.tree.namedType? type = some ident → ∃ i ms, p.globals.lookup? ident.name = some i ∧
    p.tree.interface? i = some ms ∧ ∀ m ∈ ms, p.Implemented look m

/-- What bases bring along, nearest first, does not clash with what is there before: `own` and the
members of nearer bases. -/
def Program.Inherits (own bases : List DeclId) : Prop :=
  ∀ pre b post, bases = pre ++ b :: post → ∀ m ∈ p.tree.children b,
    p.Overridden (p.tree.first? (own ++ pre.flatMap p.tree.children)) m

end Rules

theorem Tree.BaseNamed.inFile {f : FileId} {t : Tree} (ht : t.InFile f) {id : TypeExprId}
    {ident : Ident} (h : t.BaseNamed id ident) : ident.span.file = f := by
  induction h with
  | named h => exact ht.types _ _ h
  | array _ _ ih => exact ih

theorem Tree.isSome_of_sameSignature {t : Tree} {x y : DeclId} (h : t.sameSignature x y = true) :
    (t.function? x).isSome ∧ (t.function? y).isSome := by
  have hfun : ∀ {z : DeclId} {g : FunctionShape}, t.functionShape? z = some g →
      (t.function? z).isSome := by
    intro z g hz
    obtain ⟨d, hd, hz⟩ := Option.bind_eq_some_iff.mp hz
    obtain ⟨fn, hfn, _⟩ := Option.map_eq_some_iff.mp hz
    rw [Tree.function?, hd]
    exact Option.isSome_iff_exists.mpr ⟨fn, hfn⟩
  unfold sameSignature at h
  split at h
  · next hx hy => exact ⟨hfun hx, hfun hy⟩
  · cases h

theorem Tree.kind_of_function? {t : Tree} {x : DeclId} {d : Decl} (hd : t.decl? x = some d)
    (h : (t.function? x).isSome) : d.kind = .function := by
  obtain ⟨g, hg⟩ := Option.isSome_iff_exists.mp h
  obtain ⟨e, he, hs⟩ := subject_of_function? hg
  cases hd.symm.trans he
  rw [Decl.kind, hs]
  rfl

namespace AnalysisM

section Checks

variable {p : Program} {f : FileId} {a : Analysis} (hp : p.Sound f)
  (ha : a.Sound p.tree)
include hp ha

theorem validateType_judged {type : Nat} (ht : (p.tree.type? type).isSome) :
    Ends (validateType p type) a fun _ b => Judged p f a (p.TypeKnown type) a.view b := by
  obtain ⟨e, he⟩ := Option.isSome_iff_exists.mp ht
  have hle := Tree.type?_le he
  have hbase : ∀ ident, baseName? p.tree (p.tree.types.size + 1) type = some ident ↔
      p.tree.BaseNamed type ident :=
    fun ident => Tree.baseName?_eq_some hp.built.typesOrdered (by omega)
  have hsilent : Judged p f a True a.view a := .refl ha
  unfold validateType
  cases hn : baseName? p.tree (p.tree.types.size + 1) type with
  | none =>
    refine hsilent.congr ?_ rfl
    simp [Program.TypeKnown, ← hbase, hn]
  | some ident =>
    have hfile : ident.span.file = f := ((hbase ident).mp hn).inFile hp.inFile
    have hknown : p.TypeKnown type ↔ ∃ target d, p.globals.lookup? ident.name = some target ∧
        p.tree.decl? target = some d ∧ d.kind.namesType = true := by
      simp [Program.TypeKnown, ← hbase, hn]
    dsimp only
    cases hl : p.globals.lookup? ident.name with
    | none =>
      refine (reportNotDeclared_judged ha hfile _).mono fun _ b hb => hb.congr ?_ rfl
      simp [hknown, hl]
    | some target =>
      obtain ⟨d, hd, _⟩ := Tree.parent?_eq_some.mp (Tree.mem_loose.mp (hp.globals _ _ hl).1)
      dsimp only
      rw [ends_bind, ends_decl hd]
      split
      · next hk =>
        refine hsilent.congr ?_ rfl
        simp [hknown, hl, hd, hk]
      · next hk =>
        refine (reportNotDeclared_judged ha hfile _).mono fun _ b hb => hb.congr ?_ rfl
        simp [hknown, hl, hd, hk]

/-- Two functions are compared after it is clear that they are functions. -/
theorem compare_judged {x y : DeclId} {d e : Decl} (hd : p.tree.decl? x = some d)
    (he : p.tree.decl? y = some e) :
    Ends (do if ← sameSignature p x y then pure () else reportOverride p x y) a fun _ b =>
      Judged p f a (p.tree.sameSignature x y = true) a.view b := by
  rw [ends_bind]
  refine (sameSignature_judged (f := f) hp.built.typesOrdered ha x y).mono fun r b ⟨hr, hb⟩ => ?_
  subst hr
  split
  · next h => exact hb.congr (by simp [h]) rfl
  · next h =>
    refine (reportOverride_judged hp hb.sound hd he).mono fun _ c hc => ?_
    exact (hb.trans hc).congr (by simp [h]) hb.table

theorem checkInherited_judged {entry inherited : DeclId} {d e : Decl}
    (hd : p.tree.decl? entry = some d) (he : p.tree.decl? inherited = some e) :
    Ends (checkInherited p entry inherited) a fun _ b =>
      Judged p f a (p.tree.sameSignature entry inherited = true) a.view b := by
  unfold checkInherited
  rw [ends_bind, ends_decl hd, ends_bind, ends_decl he]
  split
  · next hk =>
    -- Functions are neither variables nor of different kinds.
    have hdiffer : ¬ p.tree.sameSignature entry inherited = true := by
      intro h
      obtain ⟨hx, hy⟩ := Tree.isSome_of_sameSignature h
      have hdk := Tree.kind_of_function? hd hx
      have hek := Tree.kind_of_function? he hy
      simp [hdk, hek] at hk
    exact (reportConflict_judged hp ha hd he).mono fun _ b hb => hb.congr (by simp [hdiffer]) rfl
  · exact compare_judged hp ha hd he

/-- The members of a base whose names are bound are compared with what has their names; the others
remain. -/
theorem shadowed_judged {owner : DeclId} {s : Scope} (hs : a.view owner = some s)
    (hn : s.Found p.tree) {ms : List DeclId} (hms : ∀ m ∈ ms, (p.tree.decl? m).isSome) :
    Ends (shadowed p owner ms) a fun r b =>
      r = ms.filter (fun m => (s.lookup? (p.tree.nameIdOf m)).isNone) ∧
      Judged p f a (∀ m ∈ ms, p.Overridden s.lookup? m) a.view b := by
  induction ms generalizing a with
  | nil => exact ⟨rfl, (Judged.refl ha).congr (by simp) rfl⟩
  | cons m ms ih =>
    obtain ⟨d, hd⟩ := Option.isSome_iff_exists.mp (hms m (List.mem_cons_self ..))
    have hrest : ∀ x ∈ ms, (p.tree.decl? x).isSome :=
      fun x hx => hms x (List.mem_cons_of_mem _ hx)
    unfold shadowed
    rw [ends_bind, ends_decl hd, ends_bind, ends_lookup? hs, ← Tree.nameIdOf_eq hd]
    cases h : s.lookup? (p.tree.nameIdOf m) with
    | none =>
      dsimp only
      rw [ends_bind]
      refine (ih ha hs hrest).mono fun r b ⟨hr, hb⟩ => ?_
      refine ⟨?_, hb.congr ?_ rfl⟩
      · rw [List.filter_cons_of_pos (by simp [h]), hr]
      · simp [Program.Overridden, h]
    | some entry =>
      obtain ⟨e, he⟩ := Option.isSome_iff_exists.mp (hn _ entry h)
      dsimp only
      rw [ends_bind]
      refine (checkInherited_judged hp ha he hd).mono fun _ b hb => ?_
      have hview : b.view owner = some s := by rw [hb.table, hs]
      refine (ih hb.sound hview hrest).mono fun r c ⟨hr, hc⟩ => ?_
      refine ⟨?_, (hb.trans hc).congr ?_ hb.table⟩
      · rw [List.filter_cons_of_neg (by simp [h]), hr]
      · simp [Program.Overridden, h]

theorem inheritFrom_judged {owner base : DeclId} {s : Scope} (hs : a.view owner = some s)
    (hn : s.Found p.tree) :
    Ends (inheritFrom p owner base) a fun _ b =>
      Judged p f a (∀ m ∈ p.tree.children base, p.Overridden s.lookup? m)
        (Function.update a.view owner (some (s.enterAll p.tree (p.tree.children base)))) b := by
  have hms : ∀ m ∈ p.tree.children base, (p.tree.decl? m).isSome := hp.built.isSome_of_mem_children
  unfold inheritFrom
  rw [ends_bind]
  refine (shadowed_judged hp ha hs hn hms).mono fun free b ⟨hfree, hb⟩ => ?_
  have hview : b.view owner = some s := by rw [hb.table, hs]
  rw [ends_bind]
  refine (forIn_judged (p := p) (f := f) (fun s m => s.enter (p.tree.nameIdOf m) m)
    (fun _ _ => True) (fun _ => True) (fun m hm a s ha hs _ => ⟨trivial, ?_⟩)
    hb.sound hview trivial).mono fun _ c hc => ?_
  · subst hfree
    rw [ends_bind]
    exact (enter?_judged (f := f) ha hs (hms m (List.mem_of_mem_filter hm))).mono
      fun _ b hb => ⟨rfl, hb.2⟩
  · refine (hb.trans hc).congr (by simp [along_iff]) ?_
    subst hfree
    rw [hb.table]
    exact congrArg (fun x => Function.update a.view owner (some x))
      (Scope.enterAll_filter p.tree s _ fun _ h => h)

omit hp in
theorem reportChainEnd_judged {stop : ChainEnd}
    (hi : ∀ ident, stop = .undeclared ident → ident.span.file = f) :
    Ends (reportChainEnd p stop) a fun _ b =>
      Judged p f a (¬ ∃ ident, stop = .undeclared ident) a.view b := by
  cases stop with
  | root => exact (Judged.refl ha).congr (by simp) rfl
  | unnamed => exact (Judged.refl ha).congr (by simp) rfl
  | undeclared ident =>
    exact (reportNotDeclared_judged ha (hi ident rfl) _).mono fun _ b hb => hb.congr (by simp) rfl
  | notClass id => exact (point_judged ha _ _).mono fun _ b hb => hb.congr (by simp) rfl
  | cycle id => exact (point_judged ha _ _).mono fun _ b hb => hb.congr (by simp) rfl

theorem inherit_judged {id : DeclId} {c : ClassDecl} {s : Scope} (hs : a.view id = some s)
    {own : List DeclId} (hh : s.Holds p.tree own) (hown : ∀ i ∈ own, (p.tree.decl? i).isSome)
    (hc : p.tree.class? id = some c) :
    Ends (inherit p id c) a fun _ b =>
      Judged p f a (p.Inherits own (p.bases id c).1 ∧
          ∀ x ∈ id :: (p.bases id c).1, ¬ p.BaseMissing x)
        (Function.update a.view id
          (some (s.enterAll p.tree ((p.bases id c).1.flatMap p.tree.children)))) b := by
  obtain ⟨_, hmissing, hnamed⟩ := Program.bases_chain hc
  unfold inherit
  rcases hbases : p.bases id c with ⟨bases, stop⟩
  rw [hbases] at hmissing hnamed
  dsimp only
  rw [ends_bind]
  refine (forIn_judged (p := p) (f := f) (fun s b => s.enterAll p.tree (p.tree.children b))
    (fun s b => ∀ m ∈ p.tree.children b, p.Overridden s.lookup? m) (fun s => s.Found p.tree)
    (fun x _ a s ha hs hn => ⟨hn.enterAll hp.built.isSome_of_mem_children, ?_⟩) ha hs
    (hh.found hown)).mono fun _ b hb => ?_
  · rw [ends_bind]
    exact (inheritFrom_judged hp ha hs hn).mono fun _ b hb => ⟨rfl, hb⟩
  · have hfile : ∀ ident, stop = .undeclared ident → ident.span.file = f := by
      intro ident hi
      obtain ⟨type, htype⟩ := hnamed ident hi
      exact hp.inFile.ident htype
    refine (reportChainEnd_judged hb.sound hfile).mono fun _ c hc => ?_
    refine (hb.trans hc).congr (and_congr ?_ ?_) ?_
    · simp only [along_iff, Scope.foldl_enterAll]
      have hlook : ∀ xs, (s.enterAll p.tree xs).lookup? = p.tree.first? (own ++ xs) :=
        fun xs => hh.enterAll xs
      simp only [hlook, Program.Inherits]
    · rw [hmissing]
      simp
    · rw [hb.table, Scope.foldl_enterAll]

theorem checkMethod_judged {cls method : DeclId} {iface : Ident} {s : Scope}
    (hs : a.view cls = some s) (hn : s.Found p.tree) (hi : iface.span.file = f)
    (hm : (p.tree.decl? method).isSome) :
    Ends (checkMethod p cls iface method) a fun _ b =>
      Judged p f a (p.Implemented s.lookup? method) a.view b := by
  obtain ⟨m, hm⟩ := Option.isSome_iff_exists.mp hm
  unfold checkMethod
  rw [ends_bind, ends_decl hm, ends_bind, ends_lookup? hs, ← Tree.nameIdOf_eq hm]
  cases h : s.lookup? (p.tree.nameIdOf method) with
  | none =>
    refine (reportNotImplemented_judged hp ha hi hm).mono fun _ b hb => hb.congr ?_ rfl
    simp [Program.Implemented, h]
  | some entry =>
    obtain ⟨e, he⟩ := Option.isSome_iff_exists.mp (hn _ entry h)
    have himpl : p.Implemented s.lookup? method ↔ p.tree.sameSignature entry method = true := by
      simp [Program.Implemented, h]
    dsimp only
    rw [ends_bind, ends_decl he]
    split
    · next hk =>
      have hdiffer : ¬ p.tree.sameSignature entry method = true := fun hsame =>
        hk (Tree.kind_of_function? he (Tree.isSome_of_sameSignature hsame).1)
      refine (reportConflict_judged hp ha hm he).mono fun _ b hb => hb.congr ?_ rfl
      simp [himpl, hdiffer]
    · exact (compare_judged hp ha he hm).mono fun _ b hb => hb.congr himpl.symm rfl

theorem conform_judged {cls : DeclId} {type : TypeExprId} {s : Scope}
    (hs : a.view cls = some s) (hn : s.Found p.tree) :
    Ends (conform p cls type) a fun _ b => Judged p f a (p.Conforms s.lookup? type) a.view b := by
  unfold conform
  cases hnamed : p.tree.namedType? type with
  | none =>
    refine (Judged.refl ha).congr ?_ rfl
    simp [Program.Conforms, hnamed]
  | some ident =>
    have hfile := hp.inFile.ident hnamed
    have hconf : p.Conforms s.lookup? type ↔ ∃ i ms, p.globals.lookup? ident.name = some i ∧
        p.tree.interface? i = some ms ∧ ∀ m ∈ ms, p.Implemented s.lookup? m := by
      simp [Program.Conforms, hnamed]
    dsimp only
    cases hb : (p.globals.lookup? ident.name).bind p.tree.interface? with
    | none =>
      refine (reportNotDeclared_judged ha hfile _).mono fun _ b h => h.congr ?_ rfl
      rw [hconf, false_iff]
      rintro ⟨i, ms, hi, hms, _⟩
      simp [hi, hms] at hb
    | some methods =>
      obtain ⟨i, hi, hms⟩ := Option.bind_eq_some_iff.mp hb
      have hexist : ∀ m ∈ methods, (p.tree.decl? m).isSome :=
        Tree.children_of_interface? hms ▸ hp.built.isSome_of_mem_children
      dsimp only
      rw [ends_bind]
      refine (forIn_judged_of_view (p := p) (f := f) (p.Implemented s.lookup?) (fun m hm a ha hv => ?_)
        ha rfl).mono fun _ b h => h.congr ?_ rfl
      · rw [ends_bind]
        refine (checkMethod_judged hp ha (by rw [hv]; exact hs) hn hfile (hexist m hm)).mono
          fun _ b hb => ⟨rfl, hb.congr Iff.rfl hv⟩
      · rw [hconf]
        constructor
        · intro h
          exact ⟨i, methods, hi, hms, h⟩
        · rintro ⟨j, ms, hj, hms', h⟩
          cases hi.symm.trans hj
          cases hms.symm.trans hms'
          exact h

end Checks

end AnalysisM

end DeclCheck
