import DeclCheck.Proofs.Check.Rules

/-!
# The analysis of declarations

What the analysis of a declaration asks for, and the scopes it fills. Declarations fill different
scopes, so what is asked of a list of them is asked of each on its own.
-/
namespace DeclCheck

/-- Names of declarations do not repeat. -/
def Tree.Distinct (t : Tree) (ids : List DeclId) : Prop := (ids.map t.nameIdOf).Nodup

theorem Tree.distinct_cons {t : Tree} {id : DeclId} {ids : List DeclId} :
    t.Distinct (id :: ids) ↔
      (∀ m ∈ ids, t.first? [id] (t.nameIdOf m) = none) ∧ t.Distinct ids := by
  simp only [Distinct, first?_eq_none, List.map_cons, List.nodup_cons, List.mem_map,
    List.mem_singleton, forall_eq, not_exists, not_and, ne_eq]
  simp only [eq_comm]

namespace Program

variable (p : Program)

/-- The declarations that a scope is filled with. -/
def visible (id : DeclId) : List DeclId :=
  match p.tree.class? id with
  | some c => id :: (c.members ++ (p.bases id c).1.flatMap p.tree.children)
  | none => p.tree.children id

/-- A scope after it was filled. -/
def fill (id : DeclId) (s : Scope) : Scope := { s with filled := true }.enterAll p.tree (p.visible id)

/-- The declarations whose scopes are filled with that of a declaration. -/
def touched (id : DeclId) : List DeclId :=
  match p.tree.class? id with
  | some c => id :: c.members
  | none => [id]

/-- Scopes after those of some declarations were filled. -/
def filledBy (ids : List DeclId) (v : Scoping) : Scoping :=
  fun j => if j ∈ ids then (v j).map (p.fill j) else v j

/-- The scopes before an analysis. -/
def blank : Scoping := (ScopeTable.ofTree p.tree).scopeOf?

/-- What is asked of a variable and of a function. -/
def ValueRule : Subject → Prop
  | .variable type => p.TypeKnown type
  | .function f => p.tree.Distinct f.formals ∧
      (∀ v ∈ f.formals, ∀ type, p.tree.variableType? v = some type → p.TypeKnown type) ∧
      p.TypeKnown f.result
  | _ => True

/-- What is asked of a class. -/
structure ClassRule (id : DeclId) (c : ClassDecl) : Prop where
  names : p.tree.Distinct (id :: c.members)
  inherits : p.Inherits (id :: c.members) (p.bases id c).1
  bases : ∀ x ∈ id :: (p.bases id c).1, ¬ p.BaseMissing x
  conforms : ∀ i ∈ c.implements, p.Conforms (p.tree.first? (p.visible id)) i
  members : ∀ m ∈ c.members, ∀ d, p.tree.decl? m = some d → p.ValueRule d.subject

/-- What is asked of a declaration. -/
def Rule (id : DeclId) : Subject → Prop
  | .class c => p.ClassRule id c
  | .interface ms => p.tree.Distinct ms
  | s => p.ValueRule s

variable {p}

theorem filledBy_nil (v : Scoping) : p.filledBy [] v = v := by
  funext j
  simp [filledBy]

theorem filledBy_append {xs ys : List DeclId} (h : (xs ++ ys).Nodup) (v : Scoping) :
    p.filledBy ys (p.filledBy xs v) = p.filledBy (xs ++ ys) v := by
  funext j
  have hdisjoint := (List.nodup_append.mp h).2.2
  by_cases hx : j ∈ xs
  · have hy : j ∉ ys := fun hy => hdisjoint j hx j hy rfl
    simp [filledBy, hx, hy]
  · simp [filledBy, hx]

theorem filledBy_singleton {id : DeclId} {v : Scoping} {s : Scope} (hs : v id = some s) :
    p.filledBy [id] v = Function.update v id (some (p.fill id s)) := by
  funext j
  by_cases hj : j = id
  · subst hj
    simp [filledBy, hs]
  · simp [filledBy, hj]

/-- A scope that was filled stands for what is visible in it. -/
theorem filledBy_holds {ids : List DeclId} {id : DeclId} {d : Decl} (hid : id ∈ ids)
    (hd : p.tree.decl? id = some d) (hk : d.kind ≠ .variable) :
    ∃ s, p.filledBy ids p.blank id = some s ∧ s.Holds p.tree (p.visible id) ∧ s.Indexed := by
  have hblank := ScopeTable.scopeOf?_ofTree hd
  rw [if_neg hk] at hblank
  obtain ⟨s, hs, he, _⟩ := hblank
  refine ⟨p.fill id s, ?_, ?_, ?_⟩
  · rw [filledBy, if_pos hid, blank, hs]
    rfl
  · exact (Scope.Holds.nil he.filled).enterAll (p.visible id)
  · exact he.filled.indexed.enterAll p.tree (p.visible id)

end Program

namespace AnalysisM

theorem along_enter {t : Tree} {s : Scope} {ids : List DeclId} (hh : s.Holds t ids)
    (ms : List DeclId) :
    Along (fun (s : Scope) m => s.enter (t.nameIdOf m) m)
      (fun s m => s.lookup? (t.nameIdOf m) = none) s ms ↔
      (∀ m ∈ ms, t.first? ids (t.nameIdOf m) = none) ∧ t.Distinct ms := by
  induction ms generalizing s ids with
  | nil => simp [Along, Tree.Distinct]
  | cons m ms ih =>
    rw [Along, ih (hh.enter m), congrFun hh]
    simp only [Tree.first?_append, Option.or_eq_none_iff, Tree.Distinct, List.map_cons,
      List.nodup_cons, List.mem_map, List.forall_mem_cons, Tree.first?_eq_none, List.mem_singleton,
      forall_eq, not_exists, not_and]
    constructor
    · rintro ⟨hm, hms, hn⟩
      exact ⟨⟨hm, fun x hx => (hms x hx).1⟩, fun x hx he => (hms x hx).2 he.symm, hn⟩
    · rintro ⟨⟨hm, hms⟩, hne, hn⟩
      exact ⟨hm, fun x hx => ⟨hms x hx, fun he => hne x hx he.symm⟩, hn⟩

theorem along_and {σ α : Type} {g : σ → α → σ} {ok : σ → α → Prop} {q : α → Prop} {s : σ}
    {xs : List α} :
    Along g (fun s x => ok s x ∧ q x) s xs ↔ Along g ok s xs ∧ ∀ x ∈ xs, q x := by
  induction xs generalizing s with
  | nil => simp [Along]
  | cons x xs ih =>
    simp only [Along, ih, List.forall_mem_cons]
    tauto

section Values

variable {p : Program} {f : FileId} {a : Analysis} (hp : p.Sound f)
include hp

theorem analyze_variable {id : DeclId} {d : Decl} {type : TypeExprId}
    (ha : a.Sound p.tree) (hd : p.tree.decl? id = some d)
    (hs : d.subject = .variable type) (depth : Nat) :
    Ends (analyzeWithin p (depth + 1) id) a fun _ b =>
      Judged p f a (p.TypeKnown type) a.view b := by
  have hfit : (p.tree.type? type).isSome := hp.built.fits hd hs
  rw [analyzeWithin]
  simp only [hd, hs, ends_inSpan]
  exact (validateType_judged hp (ha.inside _ _) hfit).mono fun _ b hb => hb.outside

/-- A formal is entered and its type is looked at, unless its name is taken. -/
theorem formals_judged {owner : DeclId} {s : Scope} {formals : List DeclId}
    (ha : a.Sound p.tree) (hs : a.view owner = some s) (he : s.Blank)
    (hv : ∀ v ∈ formals, p.tree.isVariable v = true) (depth : Nat) :
    Ends (forIn formals PUnit.unit fun formal _ => do
      match ← enter? p owner formal with
      | some prev => do
        reportConflict p formal prev
        pure (.yield PUnit.unit)
      | none => do
        analyzeWithin p (depth + 1) formal
        pure (.yield PUnit.unit)) a fun _ b =>
      Judged p f a (p.tree.Distinct formals ∧
          ∀ v ∈ formals, ∀ type, p.tree.variableType? v = some type → p.TypeKnown type)
        (Function.update a.view owner (some (s.enterAll p.tree formals))) b := by
  have hempty : s.Holds p.tree [] := .nil he
  refine (forIn_judged (p := p) (f := f) (fun s v => s.enter (p.tree.nameIdOf v) v)
    (fun s v => s.lookup? (p.tree.nameIdOf v) = none ∧
      ∀ type, p.tree.variableType? v = some type → p.TypeKnown type)
    (fun s => s.Found p.tree) (fun v hm a s ha hs hn => ?_) ha hs
    (hempty.found (by simp))).mono fun _ b hb => ?_
  · obtain ⟨type, htype⟩ := Option.isSome_iff_exists.mp (hv v hm)
    obtain ⟨d, hd, hsub⟩ := Tree.subject_of_variableType? htype
    have hsome : (p.tree.decl? v).isSome := Option.isSome_iff_exists.mpr ⟨d, hd⟩
    refine ⟨hn.enter hsome _, ?_⟩
    rw [ends_bind]
    refine (enter?_judged (f := f) ha hs hsome).mono fun r b ⟨hr, hb⟩ => ?_
    subst hr
    cases h : s.lookup? (p.tree.nameIdOf v) with
    | some prev =>
      obtain ⟨e, he⟩ := Option.isSome_iff_exists.mp (hn _ prev h)
      dsimp only
      rw [ends_bind]
      refine (reportConflict_judged hp hb.sound hd he).mono fun _ c hc => ⟨rfl, ?_⟩
      exact (hb.trans hc).congr (by simp) hb.table
    | none =>
      dsimp only
      rw [ends_bind]
      refine (analyze_variable hp hb.sound hd hsub depth).mono fun _ c hc => ⟨rfl, ?_⟩
      exact (hb.trans hc).congr (by simp [htype]) hb.table
  · refine hb.congr ?_ rfl
    rw [along_and, along_enter hempty]
    simp [Tree.first?]

theorem analyze_function {id : DeclId} {d : Decl} {g : FunctionDecl} {s : Scope}
    (ha : a.Sound p.tree) (hd : p.tree.decl? id = some d)
    (hsub : d.subject = .function g) (hs : a.view id = some s) (he : s.Blank)
    (hfree : s.filled = false) (depth : Nat) :
    Ends (analyzeWithin p (depth + 2) id) a fun _ b =>
      Judged p f a (p.ValueRule d.subject)
        (Function.update a.view id (some ({ s with filled := true }.enterAll p.tree g.formals))) b := by
  obtain ⟨hresult, hformals, hstate, _⟩ := hp.built.fits hd hsub
  rw [hsub]
  rw [analyzeWithin]
  simp only [hd, hsub, hstate, ends_inSpan, ends_bind, ne_eq, not_true_eq_false, ↓reduceIte]
  refine (beginScope_judged (p := p) (f := f) (ha.inside _ _) hs hfree).mono fun _ b hb => ?_
  have hbv : b.view id = some { s with filled := true } := by rw [hb.table, Function.update_self]
  refine (formals_judged hp hb.sound hbv he.filled hformals depth).mono fun _ x hx => ?_
  refine (validateType_judged hp hx.sound hresult).mono fun _ y hy => ?_
  have hall : Judged p f _ (p.ValueRule (.function g)) x.view y :=
    ((hb.trans hx).trans hy).congr (by simp [Program.ValueRule, and_assoc]) rfl
  rw [hx.table, hb.table, Function.update_idem] at hall
  split
  · rw [ends_modify]
    exact hall.outside.keep rfl rfl rfl
  · exact hall.outside

theorem enterMembers_judged {owner : DeclId} {s : Scope} {ids ms : List DeclId}
    (ha : a.Sound p.tree) (hs : a.view owner = some s) (hh : s.Holds p.tree ids)
    (hids : ∀ i ∈ ids, (p.tree.decl? i).isSome) (hms : ∀ m ∈ ms, (p.tree.decl? m).isSome) :
    Ends (forIn ms PUnit.unit fun m _ => do
      enterMember p owner m
      pure (.yield PUnit.unit)) a fun _ b =>
      Judged p f a ((∀ m ∈ ms, p.tree.first? ids (p.tree.nameIdOf m) = none) ∧ p.tree.Distinct ms)
        (Function.update a.view owner (some (s.enterAll p.tree ms))) b := by
  refine (forIn_judged (p := p) (f := f) (fun s m => s.enter (p.tree.nameIdOf m) m)
    (fun s m => s.lookup? (p.tree.nameIdOf m) = none) (fun s => s.Found p.tree)
    (fun m hm a s ha hs hn => ⟨hn.enter (hms m hm) _, ?_⟩) ha hs (hh.found hids)).mono
    fun _ b hb => hb.congr (along_enter hh ms) rfl
  rw [ends_bind]
  exact (enterMember_judged hp ha hs hn (hms m hm)).mono fun _ b hb => ⟨rfl, hb⟩

theorem analyze_interface {id : DeclId} {d : Decl} {ms : List DeclId} {s : Scope}
    (ha : a.Sound p.tree) (hd : p.tree.decl? id = some d)
    (hsub : d.subject = .interface ms) (hs : a.view id = some s) (he : s.Blank)
    (hfree : s.filled = false) (depth : Nat) :
    Ends (analyzeWithin p (depth + 1) id) a fun _ b =>
      Judged p f a (p.tree.Distinct ms)
        (Function.update a.view id (some ({ s with filled := true }.enterAll p.tree ms))) b := by
  have hchildren : p.tree.children id = ms := Tree.children_of_subject hd hsub
  have hms : ∀ m ∈ ms, (p.tree.decl? m).isSome := hchildren ▸ hp.built.isSome_of_mem_children
  rw [analyzeWithin]
  simp only [hd, hsub, ends_inSpan, ends_bind]
  refine (beginScope_judged (p := p) (f := f) (ha.inside _ _) hs hfree).mono fun _ b hb => ?_
  have hbv : b.view id = some { s with filled := true } := by rw [hb.table, Function.update_self]
  refine (enterMembers_judged hp hb.sound hbv (.nil he.filled) (by simp) hms).mono fun _ x hx => ?_
  have hrule : (True ∧ (∀ m ∈ ms, p.tree.first? [] (p.tree.nameIdOf m) = none) ∧
      p.tree.Distinct ms) ↔ p.tree.Distinct ms := by simp [Tree.first?]
  have hall := (hb.trans hx).congr hrule rfl
  rw [hb.table, Function.update_idem] at hall
  exact hall.outside

end Values

/-! ## Lists of declarations -/

section Lists

variable {p : Program} {f : FileId} {a : Analysis}

/-- Declarations that fill different scopes, one after the other. Whatever else each of them does is done along
the list. -/
theorem forIn_filled_along {body : DeclId → PUnit → AnalysisM (ForInStep PUnit)}
    (rule : DeclId → Prop) (touch : DeclId → List DeclId) {ids : List DeclId}
    (does : List DeclId → Analysis → Analysis → Prop) (hnil : ∀ a, does [] a a)
    (hcons : ∀ {id ids a b c}, (touch id ++ ids.flatMap touch).Nodup →
      b.view = p.filledBy (touch id) a.view → does [id] a b → does ids b c → does (id :: ids) a c)
    (hbody : ∀ id ∈ ids, ∀ a : Analysis, a.Sound p.tree →
      (∀ j ∈ touch id, a.view j = p.blank j) → Ends (body id ⟨⟩) a fun r b =>
        r = .yield ⟨⟩ ∧ Judged p f a (rule id) (p.filledBy (touch id) a.view) b ∧ does [id] a b)
    (hn : (ids.flatMap touch).Nodup) (ha : a.Sound p.tree)
    (hv : ∀ j ∈ ids.flatMap touch, a.view j = p.blank j) :
    Ends (forIn ids PUnit.unit body) a fun _ b =>
      Judged p f a (∀ id ∈ ids, rule id) (p.filledBy (ids.flatMap touch) a.view) b ∧ does ids a b := by
  induction ids generalizing a with
  | nil =>
    refine ⟨(Judged.refl ha).congr (by simp) ?_, hnil a⟩
    rw [List.flatMap_nil, Program.filledBy_nil]
  | cons id ids ih =>
    rw [List.flatMap_cons] at hn hv
    obtain ⟨_, hnrest, hdisjoint⟩ := List.nodup_append.mp hn
    rw [ends_forIn_cons]
    refine (hbody id (List.mem_cons_self ..) a ha fun j hj =>
      hv j (List.mem_append_left _ hj)).mono fun r b ⟨hr, hb, hdoes⟩ => ?_
    subst hr
    have hrest : ∀ j ∈ ids.flatMap touch, b.view j = p.blank j := by
      intro j hj
      have hnot : j ∉ touch id := fun h => hdisjoint j h j hj rfl
      rw [hb.table, Program.filledBy, if_neg hnot]
      exact hv j (List.mem_append_right _ hj)
    refine (ih (fun i hi => hbody i (List.mem_cons_of_mem _ hi)) hnrest hb.sound hrest).mono
      fun _ c ⟨hc, hrest⟩ => ⟨(hb.trans hc).congr (by simp) ?_, hcons hn hb.table hdoes hrest⟩
    rw [hb.table, Program.filledBy_append hn, List.flatMap_cons]

theorem forIn_filled {body : DeclId → PUnit → AnalysisM (ForInStep PUnit)}
    (rule : DeclId → Prop) (touch : DeclId → List DeclId) {ids : List DeclId}
    (hbody : ∀ id ∈ ids, ∀ a : Analysis, a.Sound p.tree →
      (∀ j ∈ touch id, a.view j = p.blank j) → Ends (body id ⟨⟩) a fun r b =>
        r = .yield ⟨⟩ ∧ Judged p f a (rule id) (p.filledBy (touch id) a.view) b)
    (hn : (ids.flatMap touch).Nodup) (ha : a.Sound p.tree)
    (hv : ∀ j ∈ ids.flatMap touch, a.view j = p.blank j) :
    Ends (forIn ids PUnit.unit body) a fun _ b =>
      Judged p f a (∀ id ∈ ids, rule id) (p.filledBy (ids.flatMap touch) a.view) b := by
  refine (forIn_filled_along rule touch (fun _ _ _ => True) (fun _ => trivial) (fun _ _ _ _ => trivial)
    (fun id hid a ha hv => ?_) hn ha hv).mono fun _ b hb => hb.1
  exact (hbody id hid a ha hv).mono fun r b hb => ⟨hb.1, hb.2, trivial⟩

/-- What is reported about the first declarations stays in front of what is reported about all. -/
theorem forIn_front (body : DeclId → PUnit → AnalysisM (ForInStep PUnit))
    (rule : DeclId → Prop) (touch : DeclId → List DeclId) (ids rest : List DeclId)
    (hbody : ∀ id ∈ ids ++ rest, ∀ a : Analysis, a.Sound p.tree →
      (∀ j ∈ touch id, a.view j = p.blank j) → Ends (body id ⟨⟩) a fun r b =>
        r = .yield ⟨⟩ ∧ Judged p f a (rule id) (p.filledBy (touch id) a.view) b)
    (hn : ((ids ++ rest).flatMap touch).Nodup) (ha : a.Sound p.tree)
    (hv : ∀ j ∈ (ids ++ rest).flatMap touch, a.view j = p.blank j) :
    Ends (forIn ids PUnit.unit body) a fun _ b =>
      Ends (forIn (ids ++ rest) PUnit.unit body) a fun _ c =>
        b.diagnostics.toList <+: c.diagnostics.toList := by
  induction ids generalizing a with
  | nil =>
    refine (forIn_filled rule touch hbody hn ha hv).mono fun _ c hc => ?_
    obtain ⟨ds, hds, _⟩ := hc.reports
    exact ⟨ds, hds.symm⟩
  | cons id ids ih =>
    rw [List.cons_append, List.flatMap_cons] at hn hv
    obtain ⟨_, hnrest, hdisjoint⟩ := List.nodup_append.mp hn
    obtain ⟨_, b, hrun, rfl, hb⟩ := (hbody id (List.mem_cons_self ..) a ha fun j hj =>
      hv j (List.mem_append_left _ hj)).run_eq
    have hrest : ∀ j ∈ (ids ++ rest).flatMap touch, b.view j = p.blank j := by
      intro j hj
      have hnot : j ∉ touch id := fun h => hdisjoint j h j hj rfl
      rw [hb.table, Program.filledBy, if_neg hnot]
      exact hv j (List.mem_append_right _ hj)
    rw [ends_forIn_cons, ends_of_run hrun]
    refine (ih (fun i hi => hbody i (List.mem_cons_of_mem _ hi)) hnrest hb.sound hrest).mono
      fun _ c hc => ?_
    rw [List.cons_append, ends_forIn_cons, ends_of_run hrun]
    exact hc

variable (hp : p.Sound f)
include hp

/-- A variable or a function, as a member or on the top level. -/
theorem analyze_value {id : DeclId} {d : Decl} (hd : p.tree.decl? id = some d)
    (hvalue : p.tree.isVariable id = true ∨ (p.tree.function? id).isSome)
    (ha : a.Sound p.tree) (hv : a.view id = p.blank id) (depth : Nat) :
    Ends (analyzeWithin p (depth + 2) id) a fun _ b =>
      Judged p f a (p.ValueRule d.subject) (p.filledBy [id] a.view) b := by
  have hblank := ScopeTable.scopeOf?_ofTree hd
  cases hsub : d.subject with
  | «variable» type =>
    have hkind : d.kind = .variable := by rw [Decl.kind, hsub]; rfl
    rw [if_pos hkind] at hblank
    have hview : p.filledBy [id] a.view = a.view := by
      funext j
      by_cases hj : j = id
      · subst hj
        have hnone : a.view j = none := hv.trans hblank
        simp [Program.filledBy, hnone]
      · simp [Program.filledBy, hj]
    rw [hview]
    exact analyze_variable hp ha hd hsub (depth + 1)
  | function g =>
    have hkind : d.kind ≠ .variable := by rw [Decl.kind, hsub]; simp [Subject.kind]
    rw [if_neg hkind] at hblank
    obtain ⟨s, hs, he, hfree⟩ := hblank
    have hview : a.view id = some s := hv.trans hs
    have hclass : p.tree.class? id = none := by simp [Tree.class?, hd, Decl.class?, hsub]
    have hvisible : p.visible id = g.formals := by
      simp [Program.visible, hclass, Tree.children_of_subject hd hsub, Subject.children]
    rw [Program.filledBy_singleton hview, Program.fill, hvisible, ← hsub]
    exact analyze_function hp ha hd hsub hview he hfree depth
  | «class» c =>
    simp [Tree.isVariable, Tree.variableType?, Tree.function?, hd, Decl.variableType?,
      Decl.function?, hsub] at hvalue
  | interface ms =>
    simp [Tree.isVariable, Tree.variableType?, Tree.function?, hd, Decl.variableType?,
      Decl.function?, hsub] at hvalue

/-- The scope of a class is filled and checked. -/
theorem declareClass_judged {id : DeclId} {d : Decl} {c : ClassDecl} {s : Scope}
    (hd : p.tree.decl? id = some d) (hsub : d.subject = .class c) (ha : a.Sound p.tree)
    (hs : a.view id = some s) (he : s.Blank) (hfree : s.filled = false) :
    Ends (declareClass p id d.name.name c) a fun _ b =>
      Judged p f a (p.tree.Distinct (id :: c.members) ∧
          (p.Inherits (id :: c.members) (p.bases id c).1 ∧
            ∀ x ∈ id :: (p.bases id c).1, ¬ p.BaseMissing x) ∧
          ∀ i ∈ c.implements, p.Conforms (p.tree.first? (p.visible id)) i)
        (Function.update a.view id (some (p.fill id s))) b := by
  have hclass : p.tree.class? id = some c := by simp [Tree.class?, hd, Decl.class?, hsub]
  have hchildren : p.tree.children id = c.members := Tree.children_of_subject hd hsub
  have hms : ∀ m ∈ c.members, (p.tree.decl? m).isSome :=
    hchildren ▸ hp.built.isSome_of_mem_children
  have hvisible : p.visible id = id :: c.members ++ (p.bases id c).1.flatMap p.tree.children := by
    simp [Program.visible, hclass]
  unfold declareClass
  rw [← Tree.nameIdOf_eq hd]
  simp only [ends_bind]
  refine (beginScope_judged (p := p) (f := f) ha hs hfree).mono fun _ x hx => ?_
  have hxv := congrFun hx.table id
  rw [Function.update_self] at hxv
  refine (bind_judged (p := p) (f := f) hx.sound hxv _ id).mono fun _ y hy => ?_
  have hyv := congrFun hy.table id
  rw [Function.update_self] at hyv
  have hself : (Scope.enter { s with filled := true } (p.tree.nameIdOf id) id).Holds p.tree [id] :=
    (Scope.Holds.nil he.filled).enter id
  refine (enterMembers_judged hp hy.sound hyv hself (by simp [hd]) hms).mono fun _ z hz => ?_
  have hzv := congrFun hz.table id
  rw [Function.update_self] at hzv
  have hown := hself.enterAll c.members
  refine (inherit_judged hp hz.sound hzv hown (by simpa [hd] using hms) hclass).mono
    fun _ w hw => ?_
  have hwv := congrFun hw.table id
  rw [Function.update_self] at hwv
  have hfill : p.fill id s = ((Scope.enter { s with filled := true } (p.tree.nameIdOf id) id).enterAll
      p.tree c.members).enterAll p.tree ((p.bases id c).1.flatMap p.tree.children) := by
    rw [Program.fill, hvisible, Scope.enterAll_append]
    rfl
  have hholds : (p.fill id s).Holds p.tree (p.visible id) := by
    rw [hfill, hvisible]
    exact hown.enterAll _
  have hfound : (p.fill id s).Found p.tree := by
    rw [hfill]
    refine (hown.found (by simpa [hd] using hms)).enterAll fun i hi => ?_
    obtain ⟨b, _, hb⟩ := List.mem_flatMap.mp hi
    exact hp.built.isSome_of_mem_children i hb
  rw [← hfill] at hwv
  refine (forIn_judged_of_view (p := p) (f := f) (p.Conforms (p.fill id s).lookup?)
    (fun i _ a ha hv => ?_) hw.sound rfl).mono fun _ v hv => ?_
  · rw [ends_bind]
    exact (conform_judged hp ha (by rw [hv]; exact hwv) hfound).mono fun _ b hb =>
      ⟨rfl, hb.congr Iff.rfl hv⟩
  · have hlook : (p.fill id s).lookup? = p.tree.first? (p.visible id) := hholds
    refine ((((hx.trans hy).trans hz).trans hw).trans hv).congr ?_ ?_
    · rw [Tree.distinct_cons, hlook]
      simp only [true_and, and_assoc]
      rfl
    · rw [hw.table, hz.table, hy.table, hx.table, Function.update_idem, Function.update_idem,
        Function.update_idem, hfill]

/-- A class is declared, and then its members are looked at. -/
theorem analyze_class {id : DeclId} {d : Decl} {c : ClassDecl} (hd : p.tree.decl? id = some d)
    (hsub : d.subject = .class c) (ha : a.Sound p.tree)
    (hv : ∀ j ∈ id :: c.members, a.view j = p.blank j) (depth : Nat) :
    Ends (analyzeWithin p (depth + 3) id) a fun _ b =>
      Judged p f a (p.ClassRule id c) (p.filledBy (id :: c.members) a.view) b := by
  have hchildren : p.tree.children id = c.members := Tree.children_of_subject hd hsub
  have hn : ([id] ++ c.members).Nodup := by
    rw [List.singleton_append, List.nodup_cons, ← hchildren]
    refine ⟨fun h => Nat.lt_irrefl _ (hp.built.child id id h).1, ?_⟩
    exact (hp.built.sorted id).imp fun h => Nat.ne_of_lt h
  have hkind : d.kind ≠ .variable := by rw [Decl.kind, hsub]; simp [Subject.kind]
  have hblank := ScopeTable.scopeOf?_ofTree hd
  rw [if_neg hkind] at hblank
  obtain ⟨s, hs, he, hfree⟩ := hblank
  have hview : a.view id = some s := (hv id (List.mem_cons_self ..)).trans hs
  have hfit := hp.built.fits hd hsub
  rw [analyzeWithin]
  simp only [hd, hsub, ends_inSpan, ends_bind]
  refine (declareClass_judged hp hd hsub (ha.inside _ _) hview he hfree).mono fun _ x hx => ?_
  rw [Analysis.view_inside, ← Program.filledBy_singleton hview] at hx
  have hxv : ∀ m ∈ c.members, x.view m = p.blank m := by
    intro m hm
    have hne : m ∉ [id] := fun h => (List.nodup_append.mp hn).2.2 m h m hm rfl
    rw [hx.table, Program.filledBy, if_neg hne]
    exact hv m (List.mem_cons_of_mem _ hm)
  refine (forIn_filled (p := p) (f := f)
    (fun m => ∀ d, p.tree.decl? m = some d → p.ValueRule d.subject) (fun m => [m])
    (fun m hm a ha hv => ?_) (by simpa using (List.nodup_append.mp hn).2.1) hx.sound
    (by simpa using hxv)).mono fun _ y hy => ?_
  · obtain ⟨e, he⟩ := Option.isSome_iff_exists.mp
      (hp.built.isSome_of_mem_children m (hchildren ▸ hm))
    rw [ends_bind]
    refine (analyze_value hp he (hfit.2.2 m hm) ha (by simpa using hv) depth).mono
      fun _ b hb => ⟨rfl, hb.congr ?_ rfl⟩
    simp [he]
  · have hrule : (p.tree.Distinct (id :: c.members) ∧
          (p.Inherits (id :: c.members) (p.bases id c).1 ∧
            ∀ x ∈ id :: (p.bases id c).1, ¬ p.BaseMissing x) ∧
          ∀ i ∈ c.implements, p.Conforms (p.tree.first? (p.visible id)) i) ∧
        (∀ m ∈ c.members, ∀ d, p.tree.decl? m = some d → p.ValueRule d.subject) ↔
          p.ClassRule id c := by
      constructor
      · rintro ⟨⟨hname, ⟨hi, hm⟩, hc⟩, hms⟩
        exact ⟨hname, hi, hm, hc, hms⟩
      · intro h
        exact ⟨⟨h.names, ⟨h.inherits, h.bases⟩, h.conforms⟩, h.members⟩
    have hall := (hx.trans hy).congr hrule rfl
    rw [hx.table, Program.filledBy_append (by simpa using hn)] at hall
    refine (hall.congr Iff.rfl ?_).outside
    simp

/-- Any declaration. -/
theorem analyze_judged {id : DeclId} {d : Decl} (hd : p.tree.decl? id = some d)
    (ha : a.Sound p.tree) (hv : ∀ j ∈ p.touched id, a.view j = p.blank j) :
    Ends (analyze p id) a fun _ b =>
      Judged p f a (p.Rule id d.subject) (p.filledBy (p.touched id) a.view) b := by
  obtain ⟨k, hk⟩ : ∃ k, p.tree.decls.size = k + 1 := by
    have hle := Tree.decl?_le hd
    exact Nat.exists_eq_add_one.mpr (Nat.lt_of_lt_of_le hle.1 hle.2)
  have hvalue : p.tree.class? id = none →
      (p.tree.isVariable id = true ∨ (p.tree.function? id).isSome) →
      Ends (analyze p id) a fun _ b =>
        Judged p f a (p.ValueRule d.subject) (p.filledBy (p.touched id) a.view) b := by
    intro hc hval
    have htouched : p.touched id = [id] := by simp [Program.touched, hc]
    rw [htouched] at hv ⊢
    exact analyze_value hp hd hval ha (by simpa using hv) _
  cases hsub : d.subject with
  | «variable» type =>
    rw [hsub] at hvalue
    refine hvalue (by simp [Tree.class?, hd, Decl.class?, hsub]) (.inl ?_)
    simp [Tree.isVariable, Tree.variableType?, hd, Decl.variableType?, hsub]
  | function g =>
    rw [hsub] at hvalue
    refine hvalue (by simp [Tree.class?, hd, Decl.class?, hsub]) (.inr ?_)
    simp [Tree.function?, hd, Decl.function?, hsub]
  | «class» c =>
    have htouched : p.touched id = id :: c.members := by
      simp [Program.touched, Tree.class?, hd, Decl.class?, hsub]
    rw [htouched] at hv ⊢
    unfold analyze
    rw [hk]
    exact analyze_class hp hd hsub ha hv k
  | interface ms =>
    have hclass : p.tree.class? id = none := by simp [Tree.class?, hd, Decl.class?, hsub]
    have htouched : p.touched id = [id] := by simp [Program.touched, hclass]
    have hvisible : p.visible id = ms := by
      simp [Program.visible, hclass, Tree.children_of_subject hd hsub, Subject.children]
    have hkind : d.kind ≠ .variable := by rw [Decl.kind, hsub]; simp [Subject.kind]
    have hblank := ScopeTable.scopeOf?_ofTree hd
    rw [if_neg hkind] at hblank
    obtain ⟨s, hs, he, hfree⟩ := hblank
    rw [htouched] at hv ⊢
    have hview : a.view id = some s := (hv id (List.mem_singleton_self id)).trans hs
    rw [Program.filledBy_singleton hview, Program.fill, hvisible]
    exact analyze_interface hp ha hd hsub hview he hfree _

end Lists

/-! ## The top level -/

/-- The declarations of the top level that are reached. -/
def reachedDecls (top : TopLevel) : Option Nat → List DeclId
  | some n => top.decls.take n
  | none => top.decls

section Top

variable {p : Program} {f : FileId} (hp : p.Sound f)
include hp

theorem mem_touched {id : DeclId} {j : DeclId} (h : j ∈ p.touched id) :
    j = id ∨ p.tree.parent? j = some id := by
  unfold Program.touched at h
  split at h
  · next c hc =>
    have hchildren := Tree.children_of_class? hc
    refine (List.mem_cons.mp h).imp_right fun hj => ?_
    exact (hp.built.child id j (hchildren ▸ hj)).2
  · exact .inl (List.mem_singleton.mp h)

theorem touched_nodup (id : DeclId) : (p.touched id).Nodup := by
  unfold Program.touched
  split
  · next c hc =>
    have hchildren := Tree.children_of_class? hc
    rw [List.nodup_cons, ← hchildren]
    refine ⟨fun h => Nat.lt_irrefl _ (hp.built.child id id h).1, ?_⟩
    exact (hp.built.sorted id).imp fun h => Nat.ne_of_lt h
  · exact List.nodup_singleton id

/-- Declarations of the top level touch different scopes. -/
theorem loose_touched_nodup : (p.tree.loose.flatMap p.touched).Nodup := by
  refine List.nodup_flatMap.mpr ⟨fun id _ => touched_nodup hp id, ?_⟩
  have hloose : ∀ {x y : Nat}, x ∈ p.tree.loose → y ∈ p.tree.loose → p.tree.parent? x ≠ some y := by
    intro x y hx hy h
    cases (Tree.mem_loose.mp hx).symm.trans h
    obtain ⟨d, hd, _⟩ := Tree.parent?_eq_some.mp (Tree.mem_loose.mp hy)
    exact Nat.lt_irrefl _ (Tree.decl?_le hd).1
  refine (List.Pairwise.and_mem.mp (Tree.loose_nodup p.tree)).imp ?_
  rintro x y ⟨hx, hy, hne⟩ j hjx hjy
  rcases mem_touched hp hjx with rfl | hpx
  · rcases mem_touched hp hjy with h | hpy
    · exact hne h
    · exact hloose hx hy hpy
  · rcases mem_touched hp hjy with rfl | hpy
    · exact hloose hy hx hpx
    · exact hne (Option.some.inj (hpx.symm.trans hpy))

/-- However far an analysis comes, it reaches declarations of the top level, and they touch different scopes. -/
theorem reached_spec (top : TopLevel) (htop : top.decls = p.tree.loose) (reached : Option Nat) :
    (∀ id ∈ reachedDecls top reached, id ∈ p.tree.loose) ∧
      ((reachedDecls top reached).flatMap p.touched).Nodup := by
  have hfront : reachedDecls top reached <+: p.tree.loose := by
    rw [← htop]
    cases reached with
    | none => exact List.prefix_refl _
    | some n => exact List.take_prefix n _
  obtain ⟨rest, hrest⟩ := hfront
  refine ⟨fun id hid => hrest ▸ List.mem_append_left rest hid, ?_⟩
  have hnodup := loose_touched_nodup hp
  rw [← hrest, List.flatMap_append] at hnodup
  exact (List.nodup_append.mp hnodup).1

/-- One round of the analysis of a top level. -/
theorem analyze_root {id : DeclId} (hid : id ∈ p.tree.loose) {a : Analysis}
    (ha : a.Sound p.tree) (hv : ∀ j ∈ p.touched id, a.view j = p.blank j) :
    Ends (do analyze p id; pure (ForInStep.yield PUnit.unit)) a fun r b =>
      r = .yield ⟨⟩ ∧ Judged p f a (∀ d, p.tree.decl? id = some d → p.Rule id d.subject)
        (p.filledBy (p.touched id) a.view) b := by
  obtain ⟨d, hd, _⟩ := Tree.parent?_eq_some.mp (Tree.mem_loose.mp hid)
  rw [ends_bind]
  refine (analyze_judged hp hd ha hv).mono fun _ b hb => ⟨rfl, hb.congr ?_ rfl⟩
  simp [hd]

omit hp in
theorem analyzeAll_eq (top : TopLevel) (reached : Option Nat) :
    analyzeAll p top reached = inSpan .pass "sema" (fun span => do
      for id in reachedDecls top reached do
        analyze p id
      noteFact span "decls" (Text.ofNat top.decls.length)) := by
  cases reached <;> rfl

/-- The analysis of a loaded program does not fail, whatever was reported before. It reports nothing exactly
if all declarations that it reaches keep the rules. -/
theorem analyzeAll_judged_from (top : TopLevel) (htop : top.decls = p.tree.loose)
    (reached : Option Nat) {a : Analysis} (ha : a.Sound p.tree) (hv : a.view = p.blank) :
    Ends (analyzeAll p top reached) a fun _ b =>
      Judged p f a
        (∀ id ∈ reachedDecls top reached, ∀ d, p.tree.decl? id = some d → p.Rule id d.subject)
        (p.filledBy ((reachedDecls top reached).flatMap p.touched) p.blank) b := by
  obtain ⟨hloose, hn⟩ := reached_spec hp top htop reached
  rw [analyzeAll_eq]
  simp only [ends_inSpan, ends_bind]
  refine (forIn_filled (p := p) (f := f)
    (fun id => ∀ d, p.tree.decl? id = some d → p.Rule id d.subject) p.touched
    (fun id hid a ha hv => ?_) hn (ha.inside _ _) fun j _ => congrFun hv j).mono fun _ b hb => ?_
  · exact analyze_root hp (hloose id hid) ha hv
  · unfold noteFact
    rw [ends_modify]
    exact (hb.congr Iff.rfl (congrArg _ hv)).outside.keep rfl rfl rfl

theorem analyzeAll_judged (top : TopLevel) (htop : top.decls = p.tree.loose)
    (reached : Option Nat) :
    Ends (analyzeAll p top reached) { table := .ofTree p.tree } fun _ b =>
      Judged p f { table := .ofTree p.tree }
        (∀ id ∈ reachedDecls top reached, ∀ d, p.tree.decl? id = some d → p.Rule id d.subject)
        (p.filledBy ((reachedDecls top reached).flatMap p.touched) p.blank) b :=
  analyzeAll_judged_from hp top htop reached (.initial p.tree) rfl

/-- An analysis that is cut short reports a front part of what the whole analysis reports. -/
theorem analyzeAll_front (top : TopLevel) (htop : top.decls = p.tree.loose) (n : Nat) :
    Ends (analyzeAll p top (some n)) { table := .ofTree p.tree } fun _ b =>
      Ends (analyzeAll p top none) { table := .ofTree p.tree } fun _ c =>
        b.diagnostics.toList <+: c.diagnostics.toList := by
  have hall : top.decls.take n ++ top.decls.drop n = p.tree.loose := by simp [htop]
  have hstart : ({ table := .ofTree p.tree } : Analysis).Sound p.tree := .initial p.tree
  have hfront := forIn_front (p := p) (f := f)
    (fun id _ => do analyze p id; pure (ForInStep.yield PUnit.unit))
    (fun id => ∀ d, p.tree.decl? id = some d → p.Rule id d.subject) p.touched
    (top.decls.take n) (top.decls.drop n)
    (fun id hid a ha hv => analyze_root hp (hall ▸ hid) ha hv)
    (by rw [hall]; exact loose_touched_nodup hp) (hstart.inside .pass "sema") fun _ _ => rfl
  rw [analyzeAll_eq, analyzeAll_eq]
  simp only [ends_inSpan, ends_bind]
  refine hfront.mono fun _ x hx => ?_
  rw [List.take_append_drop] at hx
  exact hx

end Top

end AnalysisM

end DeclCheck
