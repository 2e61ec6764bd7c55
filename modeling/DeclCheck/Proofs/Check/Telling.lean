import DeclCheck.Proofs.Check.Bodies
import DeclCheck.Proofs.Trace.Window

/-!
# What an analysis tells

The analysis of a declaration tells a span with its kind and name, and inside it what the analysis of further
declarations tells: of the members of a class, and of those formals of a function that find their names free.
Everything else tells points at most. Whatever is told is told to be inside the span that is the parent then, and
the parent is saved before a declaration and restored after it. So the spans of a check are nested, and there is
one for each declaration that was analysed.
-/
namespace DeclCheck

open Trace (Moment)

namespace Program

variable (p : Program)

/-- The name of the span of a declaration. -/
def spanName (id : DeclId) : Text :=
  ((p.tree.decl? id).map (·.kind.label)).getD [] ++ " " ++ p.tree.nameOf id

/-- What is told inside the span `parent` while declarations are visited: a span for each, around what is told of
those inside it, and points anywhere. Before, `first` spans were begun, and afterwards `last`. -/
inductive Visits : (parent first : Nat) → List DeclId → List Moment → (last : Nat) → Prop
  | nil {parent first : Nat} : Visits parent first [] [] first
  | point {parent first last : Nat} {ids : List DeclId} {m : Moment} {ms : List Moment}
      (hm : m.isPointIn parent = true) (hrest : Visits parent first ids ms last) :
      Visits parent first ids (m :: ms) last
  | visit {parent first middle last : Nat} {id : DeclId} {inner ids : List DeclId} {ms ns : List Moment}
      (hinner : Visits (first + 1) (first + 1) inner ms middle) (hrest : Visits parent middle ids ns last) :
      Visits parent first (id :: (inner ++ ids))
        (.begins .node (p.spanName id) parent :: (ms ++ .ends (first + 1) [] :: ns)) last

/-- From `a` to `b` an analysis visits the declarations `ids`, and it is in the same span again. -/
structure Told (ids : List DeclId) (a b : Analysis) : Prop where
  parent : b.parent = a.parent
  visits : ∃ ms, b.moments.toList = a.moments.toList ++ ms ∧ p.Visits a.parent a.spans ids ms b.spans

/-- The declarations that are visited with a declaration that is no class: the formals of a function that find
their names free. -/
def visitsOf (id : DeclId) : List DeclId :=
  match p.tree.function? id with
  | some g => id :: (Binding.firsts (g.formals.map p.tree.bindingOf)).map (·.decl)
  | none => [id]

variable {p} {ids js : List DeclId} {ms ns : List Moment} {a b c : Analysis} {parent first middle last : Nat}

theorem Visits.append (h : p.Visits parent first ids ms middle) (k : p.Visits parent middle js ns last) :
    p.Visits parent first (ids ++ js) (ms ++ ns) last := by
  induction h with
  | nil => exact k
  | point hm _ ih => exact .point hm (ih k)
  | visit hinner _ _ ih =>
    rw [List.cons_append, List.cons_append, List.append_assoc, List.append_assoc]
    exact .visit hinner (ih k)

theorem visits_points (h : ∀ m ∈ ms, m.isPointIn parent = true) : p.Visits parent first [] ms first := by
  induction ms with
  | nil => exact .nil
  | cons m ms ih =>
    obtain ⟨hm, hms⟩ := List.forall_mem_cons.mp h
    exact .point hm (ih hms)

/-- A moment that is a point inside a span. -/
theorem exists_of_isPointIn {m : Moment} (h : m.isPointIn parent = true) :
    ∃ scope name detail, m = .point scope name detail parent := by
  cases m with
  | point scope name detail span => exact ⟨scope, name, detail, by rw [eq_of_beq h]⟩
  | begins _ _ _ => cases h
  | notes _ _ _ => cases h
  | ends _ _ => cases h

theorem Visits.balanced (h : p.Visits parent first ids ms last) : Trace.Balanced parent first ms last := by
  induction h with
  | nil => exact .nil
  | point hm _ ih =>
    obtain ⟨scope, name, detail, rfl⟩ := exists_of_isPointIn hm
    exact .point ih
  | @visit parent first middle last id _ _ ms ns _ _ hinner hrest =>
    have hspan : Trace.Balanced parent first (.begins .node (p.spanName id) parent :: (ms ++
        (([] : Trace.Facts).map (fun fact => .notes (first + 1) fact.1 fact.2) ++ .ends (first + 1) [] :: ns))) last :=
      .span hinner hrest
    exact hspan

theorem Visits.openings_eq (h : p.Visits parent first ids ms last) :
    Trace.openings ms = ids.map fun id => (.node, p.spanName id) := by
  induction h with
  | nil => rfl
  | point hm _ ih =>
    obtain ⟨scope, name, detail, rfl⟩ := exists_of_isPointIn hm
    exact ih
  | @visit parent first _ _ id _ _ ms ns _ _ hinner hrest =>
    have hspan := Trace.openings_span .node (p.spanName id) [] parent (first + 1) [] ms ns
    rw [List.map_nil, List.nil_append] at hspan
    rw [hspan, hinner, hrest, List.map_cons, List.map_append]

theorem Told.trans (h : p.Told ids a b) (k : p.Told js b c) : p.Told (ids ++ js) a c := by
  obtain ⟨ms, hms, hvisits⟩ := h.visits
  obtain ⟨ns, hns, hvisits'⟩ := k.visits
  rw [h.parent] at hvisits'
  exact ⟨k.parent.trans h.parent, ms ++ ns, by rw [hns, hms, List.append_assoc], hvisits.append hvisits'⟩

theorem Told.refl (a : Analysis) : p.Told [] a a := ⟨rfl, [], (List.append_nil _).symm, .nil⟩

theorem told_of_points (h : AnalysisM.TellsPoints a b) : p.Told [] a b := by
  obtain ⟨told, htold, hpoints⟩ := h.points
  refine ⟨h.parent, told, htold, ?_⟩
  rw [h.spans]
  exact visits_points hpoints

/-- The span of a declaration around what is told inside it. -/
theorem Told.visit {id : DeclId} {d : Decl} (hd : p.tree.decl? id = some d)
    (h : p.Told ids (a.inside .node (d.kind.label ++ " " ++ p.tree.nameOf id)) b) :
    p.Told (id :: ids) a (a.outside b) := by
  obtain ⟨ms, hms, hvisits⟩ := h.visits
  have hname : p.spanName id = d.kind.label ++ " " ++ p.tree.nameOf id := by rw [spanName, hd]; rfl
  refine ⟨rfl, .begins .node (p.spanName id) a.parent :: (ms ++ [.ends (a.spans + 1) []]), ?_, ?_⟩
  · simp [Analysis.outside, hms, Analysis.inside, hname]
  · have hone : p.Visits a.parent a.spans (id :: (ids ++ []))
        (.begins .node (p.spanName id) a.parent :: (ms ++ [.ends (a.spans + 1) []])) b.spans := .visit hvisits .nil
    rwa [List.append_nil] at hone

end Program

namespace AnalysisM

variable {p : Program} {α : Type} {a : Analysis}

/-- Steps without spans visit nothing. -/
theorem Steps.visits_nothing {x : AnalysisM α} (hx : Steps p True False x) {post : α → Analysis → Prop}
    (h : Ends x a post) : Ends x a fun r b => post r b ∧ p.Told [] a b := by
  obtain ⟨r, b, hrun, hpost⟩ := h.run_eq
  obtain ⟨_, _, htold, _⟩ := hx a
  rw [hrun] at htold
  rw [ends_of_run hrun]
  exact ⟨hpost, Program.told_of_points (htold.resolve_left id)⟩

theorem class?_of_value {id : DeclId} (h : p.tree.isVariable id = true ∨ (p.tree.function? id).isSome) :
    p.tree.class? id = none := by
  cases hclass : p.tree.class? id with
  | none => rfl
  | some c =>
    obtain ⟨d, hd, hsub⟩ := Tree.subject_of_class? hclass
    simp [Tree.isVariable, Tree.variableType?, Tree.function?, hd, Decl.variableType?, Decl.function?, hsub] at h

section Values

variable {f : FileId} (hp : p.Sound f)
include hp

theorem analyze_variable_told {id : DeclId} {d : Decl} {type : TypeExprId} (ha : a.Sound p.tree)
    (hd : p.tree.decl? id = some d) (hsub : d.subject = .variable type) (depth : Nat) :
    Ends (analyzeWithin p (depth + 1) id) a fun _ b => p.Told [id] a b := by
  have hfit : (p.tree.type? type).isSome := hp.built.fits hd hsub
  rw [analyzeWithin]
  simp only [hd, hsub, ends_inSpan]
  exact ((validateType_steps type).visits_nothing (validateType_judged hp (ha.inside _ _) hfit)).mono
    fun _ b hvalidated => .visit hd hvalidated.2

/-- The formals that are visited are those that are entered. -/
theorem formals_told {owner : DeclId} {s : Scope} {formals : List DeclId} (ha : a.Sound p.tree)
    (hs : a.view owner = some s) (hfound : s.Found p.tree) (hv : ∀ v ∈ formals, p.tree.isVariable v = true)
    (depth : Nat) :
    Ends (forIn formals PUnit.unit fun formal _ => do
      match ← enter? p owner formal with
      | some prev => do
        reportConflict p formal prev
        pure (.yield PUnit.unit)
      | none => do
        analyzeWithin p (depth + 1) formal
        pure (.yield PUnit.unit)) a fun _ b =>
      ∃ ids u, p.Told ids a b ∧ b.view owner = some u ∧ u.entries = s.entries ++ ids.map p.tree.bindingOf := by
  induction formals generalizing a s with
  | nil => exact ⟨[], s, .refl a, hs, by simp⟩
  | cons v formals ih =>
    obtain ⟨hvar, hv⟩ := List.forall_mem_cons.mp hv
    obtain ⟨type, htype⟩ := Option.isSome_iff_exists.mp hvar
    obtain ⟨d, hd, hsub⟩ := Tree.subject_of_variableType? htype
    have hsome : (p.tree.decl? v).isSome := Option.isSome_iff_exists.mpr ⟨d, hd⟩
    rw [ends_forIn_cons, ends_bind]
    refine ((enter?_steps owner v).visits_nothing (enter?_judged (f := f) ha hs hsome)).mono fun r b hentered => ?_
    obtain ⟨⟨rfl, hb⟩, htold⟩ := hentered
    have hbv : b.view owner = some (s.enter (p.tree.nameIdOf v) v) := by rw [hb.table, Function.update_self]
    have hnext := hfound.enter hsome (p.tree.nameIdOf v)
    cases hlook : s.lookup? (p.tree.nameIdOf v) with
    | some prev =>
      obtain ⟨e, he⟩ := Option.isSome_iff_exists.mp (hfound _ prev hlook)
      dsimp only
      rw [ends_bind]
      refine ((reportConflict_steps v prev).visits_nothing (reportConflict_judged hp hb.sound hd he)).mono
        fun _ c hreported => ?_
      obtain ⟨hc, htold'⟩ := hreported
      refine (ih hc.sound (hc.table ▸ hbv) hnext hv).mono fun _ x hrest => ?_
      obtain ⟨ids, u, hids, hu, hentries⟩ := hrest
      rw [Scope.enter_eq_self hlook] at hentries
      exact ⟨ids, u, (htold.trans htold').trans hids, hu, hentries⟩
    | none =>
      dsimp only
      rw [ends_bind]
      refine ((analyze_variable hp hb.sound hd hsub depth).and
        (analyze_variable_told hp hb.sound hd hsub depth)).mono fun _ c hvisited => ?_
      obtain ⟨hc, htold'⟩ := hvisited
      refine (ih hc.sound (hc.table ▸ hbv) hnext hv).mono fun _ x hrest => ?_
      obtain ⟨ids, u, hids, hu, hentries⟩ := hrest
      rw [Scope.entries_enter, hlook, if_neg (by simp)] at hentries
      exact ⟨v :: ids, u, (htold.trans htold').trans hids, hu, by rw [hentries, List.append_assoc]; rfl⟩

theorem analyze_function_told {id : DeclId} {d : Decl} {g : FunctionDecl} {s : Scope}
    (ha : a.Sound p.tree) (hd : p.tree.decl? id = some d) (hsub : d.subject = .function g)
    (hs : a.view id = some s) (he : s.Blank) (hfree : s.filled = false) (depth : Nat) :
    Ends (analyzeWithin p (depth + 2) id) a fun _ b =>
      p.Told (id :: (Binding.firsts (g.formals.map p.tree.bindingOf)).map (·.decl)) a b := by
  obtain ⟨hresult, hformals, hstate, _⟩ := hp.built.fits hd hsub
  rw [analyzeWithin]
  simp only [hd, hsub, hstate, ends_inSpan, ends_bind, ne_eq, not_true_eq_false, ↓reduceIte]
  refine ((beginScope_steps (p := p) id).visits_nothing
    (beginScope_judged (p := p) (f := f) (ha.inside _ _) hs hfree)).mono fun _ b hbegun => ?_
  obtain ⟨hb, htold⟩ := hbegun
  have hbv : b.view id = some { s with filled := true } := by rw [hb.table, Function.update_self]
  have hempty : Scope.Holds p.tree { s with filled := true } [] := .nil he.filled
  refine ((formals_judged hp hb.sound hbv he.filled hformals depth).and
    (formals_told hp hb.sound hbv (hempty.found (by simp)) hformals depth)).mono fun _ x hentered => ?_
  obtain ⟨hx, ids, u, hids, hu, hentries⟩ := hentered
  have hfirsts : ids = (Binding.firsts (g.formals.map p.tree.bindingOf)).map (·.decl) := by
    rw [hx.table, Function.update_self] at hu
    cases hu
    rw [he.filled.indexed.entries_enterAll, he.filled.entries, List.nil_append, List.nil_append] at hentries
    rw [hentries, List.map_map]
    exact (List.map_id ids).symm
  refine ((validateType_steps g.result).visits_nothing (validateType_judged hp hx.sound hresult)).mono
    fun _ y hvalidated => ?_
  have hinner := (htold.trans hids).trans hvalidated.2
  rw [List.nil_append, List.append_nil, hfirsts] at hinner
  split
  · rw [ends_modify]
    obtain ⟨hparent, hvisits⟩ := hinner
    exact .visit hd ⟨hparent, hvisits⟩
  · exact .visit hd hinner

theorem analyze_interface_told {id : DeclId} {d : Decl} {ms : List DeclId} {s : Scope}
    (ha : a.Sound p.tree) (hd : p.tree.decl? id = some d) (hsub : d.subject = .interface ms)
    (hs : a.view id = some s) (he : s.Blank) (hfree : s.filled = false) (depth : Nat) :
    Ends (analyzeWithin p (depth + 1) id) a fun _ b => p.Told [id] a b := by
  have hchildren : p.tree.children id = ms := Tree.children_of_subject hd hsub
  have hms : ∀ m ∈ ms, (p.tree.decl? m).isSome := hchildren ▸ hp.built.isSome_of_mem_children
  rw [analyzeWithin]
  simp only [hd, hsub, ends_inSpan, ends_bind]
  refine ((beginScope_steps (p := p) id).visits_nothing
    (beginScope_judged (p := p) (f := f) (ha.inside _ _) hs hfree)).mono fun _ b hbegun => ?_
  obtain ⟨hb, htold⟩ := hbegun
  have hbv : b.view id = some { s with filled := true } := by rw [hb.table, Function.update_self]
  refine ((Steps.forEach fun m _ => enterMember_steps id m).visits_nothing
    (enterMembers_judged hp hb.sound hbv (.nil he.filled) (by simp) hms)).mono fun _ x hentered => ?_
  exact .visit hd (htold.trans hentered.2)

/-- A declaration that is no class, as a member or on the top level. -/
theorem analyze_value_told {id : DeclId} {d : Decl} (hd : p.tree.decl? id = some d)
    (hclass : p.tree.class? id = none) (ha : a.Sound p.tree) (hv : a.view id = p.blank id) (depth : Nat) :
    Ends (analyzeWithin p (depth + 2) id) a fun _ b => p.Told (p.visitsOf id) a b := by
  have hblank := ScopeTable.scopeOf?_ofTree hd
  cases hsub : d.subject with
  | «variable» type =>
    have hvisits : p.visitsOf id = [id] := by simp [Program.visitsOf, Tree.function?, hd, Decl.function?, hsub]
    rw [hvisits]
    exact analyze_variable_told hp ha hd hsub (depth + 1)
  | function g =>
    rw [if_neg (by rw [Decl.kind, hsub]; exact DeclKind.noConfusion)] at hblank
    obtain ⟨s, hs, he, hfree⟩ := hblank
    have hfunction : p.tree.function? id = some g := by simp [Tree.function?, hd, Decl.function?, hsub]
    simp only [Program.visitsOf, hfunction]
    exact analyze_function_told hp ha hd hsub (hv.trans hs) he hfree depth
  | interface ms =>
    rw [if_neg (by rw [Decl.kind, hsub]; exact DeclKind.noConfusion)] at hblank
    obtain ⟨s, hs, he, hfree⟩ := hblank
    have hvisits : p.visitsOf id = [id] := by simp [Program.visitsOf, Tree.function?, hd, Decl.function?, hsub]
    rw [hvisits]
    exact analyze_interface_told hp ha hd hsub (hv.trans hs) he hfree (depth + 1)
  | «class» c => simp [Tree.class?, hd, Decl.class?, hsub] at hclass

end Values

/-! ## Lists of declarations -/

/-- Declarations that fill different scopes are visited one after the other. -/
theorem forIn_told {f : FileId} {body : DeclId → PUnit → AnalysisM (ForInStep PUnit)} (rule : DeclId → Prop)
    (visits touch : DeclId → List DeclId) {ids : List DeclId}
    (hbody : ∀ id ∈ ids, ∀ a : Analysis, a.Sound p.tree →
      (∀ j ∈ touch id, a.view j = p.blank j) → Ends (body id ⟨⟩) a fun r b =>
        r = .yield ⟨⟩ ∧ Judged p f a (rule id) (p.filledBy (touch id) a.view) b ∧ p.Told (visits id) a b)
    (hn : (ids.flatMap touch).Nodup) (ha : a.Sound p.tree)
    (hv : ∀ j ∈ ids.flatMap touch, a.view j = p.blank j) :
    Ends (forIn ids PUnit.unit body) a fun _ b => p.Told (ids.flatMap visits) a b := by
  refine (forIn_filled_along (f := f) rule touch (fun ids a b => p.Told (ids.flatMap visits) a b) (fun a => .refl a)
    (fun _ _ hfirst hrest => ?_) ?_ hn ha hv).mono fun _ b hb => hb.2
  · rw [List.flatMap_singleton] at hfirst
    exact hfirst.trans hrest
  · simpa only [List.flatMap_singleton] using hbody

section Lists

variable {f : FileId} (hp : p.Sound f)
include hp

theorem analyze_class_told {id : DeclId} {d : Decl} {c : ClassDecl} (hd : p.tree.decl? id = some d)
    (hsub : d.subject = .class c) (ha : a.Sound p.tree)
    (hv : ∀ j ∈ id :: c.members, a.view j = p.blank j) (depth : Nat) :
    Ends (analyzeWithin p (depth + 3) id) a fun _ b => p.Told (id :: c.members.flatMap p.visitsOf) a b := by
  have hchildren : p.tree.children id = c.members := Tree.children_of_subject hd hsub
  have hclass : p.tree.class? id = some c := by simp [Tree.class?, hd, Decl.class?, hsub]
  have hn : (id :: c.members).Nodup := by
    have hnodup := touched_nodup hp id
    simpa only [Program.touched, hclass] using hnodup
  obtain ⟨hnot, hnodup⟩ := List.nodup_cons.mp hn
  have hblank := ScopeTable.scopeOf?_ofTree hd
  rw [if_neg (by rw [Decl.kind, hsub]; exact DeclKind.noConfusion)] at hblank
  obtain ⟨s, hs, he, hfree⟩ := hblank
  have hview : a.view id = some s := (hv id (List.mem_cons_self ..)).trans hs
  have hfit := hp.built.fits hd hsub
  rw [analyzeWithin]
  simp only [hd, hsub, ends_inSpan, ends_bind]
  refine ((declareClass_steps (Option.isSome_iff_exists.mpr ⟨d, hd⟩) _ c).visits_nothing
    (declareClass_judged hp hd hsub (ha.inside _ _) hview he hfree)).mono fun _ x hdeclared => ?_
  obtain ⟨hx, htold⟩ := hdeclared
  have hxv : ∀ m ∈ c.members, x.view m = p.blank m := by
    intro m hm
    have hne : m ≠ id := by
      rintro rfl
      exact hnot hm
    rw [hx.table, Function.update_of_ne hne]
    exact hv m (List.mem_cons_of_mem _ hm)
  refine (forIn_told (p := p) (f := f) (fun m => ∀ d, p.tree.decl? m = some d → p.ValueRule d.subject)
    p.visitsOf (fun m => [m]) (fun m hm a ha hv => ?_) (by simpa using hnodup) hx.sound (by simpa using hxv)).mono
    fun _ y hmembers => ?_
  · obtain ⟨e, he⟩ := Option.isSome_iff_exists.mp (hp.built.isSome_of_mem_children m (hchildren ▸ hm))
    have hblank : a.view m = p.blank m := by simpa using hv
    have hvalue := hfit.2.2 m hm
    rw [ends_bind]
    refine ((analyze_value hp he hvalue ha hblank depth).and
      (analyze_value_told hp he (class?_of_value hvalue) ha hblank depth)).mono
      fun _ b hboth => ⟨rfl, hboth.1.congr ?_ rfl, hboth.2⟩
    simp [he]
  · exact .visit hd (htold.trans hmembers)

/-- A declaration of the top level is visited with its members. -/
theorem analyze_root_told {id : DeclId} (hid : id ∈ p.tree.loose) (ha : a.Sound p.tree)
    (hv : ∀ j ∈ p.touched id, a.view j = p.blank j) :
    Ends (analyze p id) a fun _ b => p.Told ((p.touched id).flatMap p.visitsOf) a b := by
  obtain ⟨d, hd, _⟩ := Tree.parent?_eq_some.mp (Tree.mem_loose.mp hid)
  cases hclass : p.tree.class? id with
  | none =>
    simp only [Program.touched, hclass, List.flatMap_singleton] at hv ⊢
    exact analyze_value_told hp hd hclass ha (hv id (List.mem_singleton_self id)) _
  | some c =>
    obtain ⟨d', hd', hsub⟩ := Tree.subject_of_class? hclass
    obtain ⟨k, hk⟩ : ∃ k, p.tree.decls.size = k + 1 := by
      have hle := Tree.decl?_le hd
      exact Nat.exists_eq_add_one.mpr (Nat.lt_of_lt_of_le hle.1 hle.2)
    have hself : p.visitsOf id = [id] := by simp [Program.visitsOf, Tree.function?, hd', Decl.function?, hsub]
    simp only [Program.touched, hclass, List.flatMap_cons, hself] at hv ⊢
    unfold analyze
    rw [hk]
    exact analyze_class_told hp hd' hsub ha hv k

theorem analyzeAll_told (top : TopLevel) (htop : top.decls = p.tree.loose) (reached : Option Nat)
    (ha : a.Sound p.tree) (hv : a.view = p.blank) :
    Ends (analyzeAll p top reached) a fun _ b => b.parent = a.parent ∧ ∃ ms,
      b.moments.toList = a.moments.toList ++ .begins .pass "sema" a.parent :: (ms ++
        [.notes (a.spans + 1) "decls" (Text.ofNat top.decls.length), .ends (a.spans + 1) []]) ∧
      p.Visits (a.spans + 1) (a.spans + 1) (((reachedDecls top reached).flatMap p.touched).flatMap p.visitsOf) ms
        b.spans := by
  obtain ⟨hloose, hn⟩ := reached_spec hp top htop reached
  rw [analyzeAll_eq]
  simp only [ends_inSpan, ends_bind]
  refine (forIn_told (p := p) (f := f) (fun id => ∀ d, p.tree.decl? id = some d → p.Rule id d.subject)
    (fun id => (p.touched id).flatMap p.visitsOf) p.touched (fun id hid a ha hv => ?_) hn (ha.inside _ _)
    fun j _ => congrFun hv j).mono fun _ b hvisited => ?_
  · have htold : Ends (do analyze p id; pure (ForInStep.yield PUnit.unit)) a fun _ b =>
        p.Told ((p.touched id).flatMap p.visitsOf) a b := by
      rw [ends_bind]
      exact analyze_root_told hp (hloose id hid) ha hv
    exact ((analyze_root hp (hloose id hid) ha hv).and htold).mono
      fun r b hboth => ⟨hboth.1.1, hboth.1.2, hboth.2⟩
  · obtain ⟨ms, hms, hvisits⟩ := hvisited.visits
    unfold noteFact
    rw [ends_modify]
    refine ⟨rfl, ms, ?_, by rwa [List.flatMap_assoc]⟩
    simp [Analysis.outside, hms, Analysis.inside]

end Lists

end AnalysisM

/-! ## The declarations that are visited -/

theorem Binding.firsts_sublist (bs : List Binding) : (firsts bs).Sublist bs := by
  induction bs with
  | nil => exact .slnil
  | cons b bs ih => exact (List.filter_sublist.trans ih).cons_cons b

namespace Program

/-- The declarations that are analysed, given those of the top level that are reached and the scopes in the end:
these, the members of classes among them, and the formals that were entered in the scope of a function. -/
inductive Analyzed (p : Program) (reached : List DeclId) (table : ScopeTable) : DeclId → Prop
  | top {id : DeclId} (h : id ∈ reached) : Analyzed p reached table id
  | member {cls id : DeclId} {c : ClassDecl} (hcls : cls ∈ reached) (hc : p.tree.class? cls = some c)
      (h : id ∈ c.members) : Analyzed p reached table id
  | formal {fn id : DeclId} {g : FunctionDecl} {s : Scope} (hfn : Analyzed p reached table fn)
      (hg : p.tree.function? fn = some g) (h : id ∈ g.formals) (hs : table.scopeOf? fn = some s)
      (hentered : p.tree.bindingOf id ∈ s.entries) : Analyzed p reached table id

variable {p : Program}

theorem mem_visitsOf {id x : DeclId} : x ∈ p.visitsOf id ↔ x = id ∨ ∃ g, p.tree.function? id = some g ∧
    x ∈ g.formals ∧ p.tree.bindingOf x ∈ Binding.firsts (g.formals.map p.tree.bindingOf) := by
  unfold visitsOf
  cases hg : p.tree.function? id with
  | none => simp
  | some g =>
    rw [List.mem_cons]
    refine or_congr_right ?_
    constructor
    · intro hx
      obtain ⟨b, hb, rfl⟩ := List.mem_map.mp hx
      obtain ⟨v, hv, rfl⟩ := List.mem_map.mp ((Binding.firsts_sublist _).subset hb)
      exact ⟨g, rfl, hv, hb⟩
    · rintro ⟨g', hg', _, hb⟩
      cases hg'
      exact List.mem_map_of_mem hb

variable {f : FileId} (hp : p.Sound f)
include hp

theorem visitsOf_nodup (id : DeclId) : (p.visitsOf id).Nodup := by
  unfold visitsOf
  cases hg : p.tree.function? id with
  | none => exact List.nodup_singleton id
  | some g =>
    obtain ⟨d, hd, hsub⟩ := Tree.subject_of_function? hg
    have hchildren : p.tree.children id = g.formals := Tree.children_of_subject hd hsub
    have hsublist : ((Binding.firsts (g.formals.map p.tree.bindingOf)).map (·.decl)).Sublist g.formals := by
      have hself : (g.formals.map p.tree.bindingOf).map (·.decl) = g.formals := by
        rw [List.map_map]
        exact List.map_id _
      have hmap := (Binding.firsts_sublist (g.formals.map p.tree.bindingOf)).map (·.decl)
      rwa [hself] at hmap
    refine List.nodup_cons.mpr ⟨fun hid => ?_, ?_⟩
    · have hchild := hp.built.child id id (hchildren ▸ hsublist.subset hid)
      exact Nat.lt_irrefl _ hchild.1
    · refine List.Nodup.sublist hsublist ?_
      rw [← hchildren]
      exact (hp.built.sorted id).imp fun h => Nat.ne_of_lt h

/-- A formal is no declaration of the top level and no member of a class. -/
theorem formal_not_touched {r id fn : DeclId} {g : FunctionDecl} (hr : r ∈ p.tree.loose) (hid : id ∈ p.touched r)
    (hg : p.tree.function? fn = some g) : id ∉ g.formals := by
  intro hformal
  obtain ⟨d, hd, hsub⟩ := Tree.subject_of_function? hg
  have hchildren : p.tree.children fn = g.formals := Tree.children_of_subject hd hsub
  have hparent := (hp.built.child fn id (hchildren ▸ hformal)).2
  rcases AnalysisM.mem_touched hp hid with rfl | hparent'
  · rw [Tree.mem_loose.mp hr] at hparent
    cases hparent
    exact Nat.lt_irrefl _ (Tree.decl?_le hd).1
  · obtain rfl : r = fn := Option.some.inj (hparent'.symm.trans hparent)
    have hclass : p.tree.class? r = none := by simp [Tree.class?, hd, Decl.class?, hsub]
    simp only [touched, hclass, List.mem_singleton] at hid
    subst hid
    exact Nat.lt_irrefl _ (hp.built.child id id (hchildren ▸ hformal)).1

/-- No declaration is visited twice. -/
theorem visited_nodup {reached : List DeclId} (hloose : ∀ id ∈ reached, id ∈ p.tree.loose)
    (hn : (reached.flatMap p.touched).Nodup) : ((reached.flatMap p.touched).flatMap p.visitsOf).Nodup := by
  refine List.nodup_flatMap.mpr ⟨fun id _ => visitsOf_nodup hp id, ?_⟩
  have hformal : ∀ {x y : DeclId}, x ∈ reached.flatMap p.touched → ∀ {g}, p.tree.function? y = some g →
      x ∉ g.formals := by
    intro x y hx g hg
    obtain ⟨r, hr, hx⟩ := List.mem_flatMap.mp hx
    exact formal_not_touched hp (hloose r hr) hx hg
  refine (List.Pairwise.and_mem.mp hn).imp ?_
  rintro x y ⟨hx, hy, hne⟩ v hvx hvy
  rcases mem_visitsOf.mp hvx with rfl | ⟨g, hg, hv, _⟩
  · rcases mem_visitsOf.mp hvy with h | ⟨g, hg, hv, _⟩
    · exact hne h
    · exact hformal hx hg hv
  · rcases mem_visitsOf.mp hvy with rfl | ⟨g', hg', hv', _⟩
    · exact hformal hy hg hv
    · -- Both functions are the parent of the formal.
      have hparent : ∀ {fn : DeclId} {g : FunctionDecl}, p.tree.function? fn = some g → v ∈ g.formals →
          p.tree.parent? v = some fn := by
        intro fn g hg hv
        obtain ⟨d, hd, hsub⟩ := Tree.subject_of_function? hg
        have hchildren : p.tree.children fn = g.formals := Tree.children_of_subject hd hsub
        exact (hp.built.child fn v (hchildren ▸ hv)).2
      exact hne (Option.some.inj ((hparent hg hv).symm.trans (hparent hg' hv')))

theorem mem_visited_iff {reached : List DeclId} {table : ScopeTable}
    (htable : table.scopeOf? = p.filledBy (reached.flatMap p.touched) p.blank) {id : DeclId} :
    id ∈ (reached.flatMap p.touched).flatMap p.visitsOf ↔ p.Analyzed reached table id := by
  have hscope : ∀ {fn : DeclId} {g : FunctionDecl}, p.tree.function? fn = some g →
      fn ∈ reached.flatMap p.touched → ∃ s, table.scopeOf? fn = some s ∧
        s.entries = Binding.firsts (g.formals.map p.tree.bindingOf) := by
    intro fn g hg hfn
    obtain ⟨s, hs, _, hentries⟩ := entries_filledBy hg hfn
    exact ⟨s, (congrFun htable fn).trans hs, hentries⟩
  constructor
  · intro hid
    obtain ⟨j, hj, hid⟩ := List.mem_flatMap.mp hid
    have hanalyzed : p.Analyzed reached table j := by
      obtain ⟨r, hr, hjr⟩ := List.mem_flatMap.mp hj
      rcases mem_touched_iff.mp hjr with rfl | ⟨c, hc, hmember⟩
      · exact .top hr
      · exact .member hr hc hmember
    rcases mem_visitsOf.mp hid with rfl | ⟨g, hg, hv, hfirst⟩
    · exact hanalyzed
    · obtain ⟨s, hs, hentries⟩ := hscope hg hj
      exact .formal hanalyzed hg hv hs (hentries ▸ hfirst)
  · intro h
    have hself : ∀ {j : DeclId}, j ∈ reached.flatMap p.touched →
        j ∈ (reached.flatMap p.touched).flatMap p.visitsOf := fun hj =>
      List.mem_flatMap.mpr ⟨_, hj, mem_visitsOf.mpr (.inl rfl)⟩
    induction h with
    | @top id h => exact hself (List.mem_flatMap.mpr ⟨id, h, mem_touched_iff.mpr (.inl rfl)⟩)
    | @member cls id c hcls hc h =>
      exact hself (List.mem_flatMap.mpr ⟨cls, hcls, mem_touched_iff.mpr (.inr ⟨c, hc, h⟩)⟩)
    | @formal fn id g s _ hg h hs hentered ih =>
      -- A function is no formal, so it was reached itself.
      obtain ⟨j, hj, hfn⟩ := List.mem_flatMap.mp ih
      rcases mem_visitsOf.mp hfn with rfl | ⟨g', hg', hformal, _⟩
      · obtain ⟨s', hs', hentries⟩ := hscope hg hj
        cases hs.symm.trans hs'
        exact List.mem_flatMap.mpr ⟨fn, hj, mem_visitsOf.mpr (.inr ⟨g, hg, h, hentries ▸ hentered⟩)⟩
      · obtain ⟨d, hd, hsub⟩ := Tree.subject_of_function? hg'
        have hvariable := (hp.built.fits hd hsub).2.1 fn hformal
        obtain ⟨e, he, hsub'⟩ := Tree.subject_of_function? hg
        simp [Tree.isVariable, Tree.variableType?, he, Decl.variableType?, hsub'] at hvariable

end Program

/-! ## Events of a check -/

theorem Trace.Level.admits_of_node {l : Trace.Level} (h : l.admits .node = true) (scope : Trace.EventScope) :
    l.admits scope = true := by
  unfold admits at h ⊢
  by_cases hphase : l = phase
  · rw [if_pos hphase] at h
    exact absurd h (by decide)
  · by_cases hdetail : l = detail
    · rw [if_neg hphase, if_pos hdetail] at h
      exact absurd h (by decide)
    · rwa [if_neg hphase, if_neg hdetail] at h ⊢

/-- The events of an analysis inside the span `outer`, after `count` spans were numbered: they are nested, each span
ends once and as it began, its number is new, and after the span of the whole there is one for each declaration
that was analysed. -/
structure Program.Traced (p : Program) (analyzed : DeclId → Prop) (outer count : Nat) (es : List Trace.Event) :
    Prop where
  nested : Trace.Nested outer es
  closed : ((Trace.ended es).map Trace.Event.identity).Perm ((Trace.begun es).map Trace.Event.identity)
  fresh : (Trace.begun es).map (·.span) = List.range' (count + 1) (Trace.begun es).length
  spans : ∃ ids : List DeclId, ids.Nodup ∧ (∀ id, id ∈ ids ↔ analyzed id) ∧
    (Trace.begun es).map (fun e => (e.scope, e.name)) =
      (Trace.EventScope.pass, ("sema" : Text)) :: ids.map fun id => (Trace.EventScope.node, p.spanName id)

/-- What is told of declarations inside a span of their own, as part of a longer phase, is turned into nested events. -/
theorem Program.Visits.traced {p : Program} {ids : List DeclId} {ms : List Moment} {count : Nat}
    (h : p.Visits 1 1 ids ms count) (hn : ids.Nodup) {analyzed : DeclId → Prop} (hids : ∀ id, id ∈ ids ↔ analyzed id)
    {t : Trace.Tracer} (hlevel : t.level.admits .node = true) (surroundings : Nat)
    {begun : Array Trace.Tracer.Begun} {around : Nat} (haround : around ≤ begun.size) (facts : Trace.Facts)
    {timed : List (Int × Moment)}
    (htimed : timed.map (·.2) = (.begins .pass "sema" 0 :: (ms ++
      (facts.map (fun fact => .notes 1 fact.1 fact.2) ++ [.ends 1 []]))).map (·.within begun.size around)) :
    ∃ u more es, Trace.Tracer.run surroundings t begun timed = (u, begun ++ more) ∧ more.size = count ∧
      Trace.Tracer.Adds t u es ∧
      p.Traced analyzed (Trace.Tracer.currentOf surroundings begun around) t.spanCount es := by
  have hadmits := Trace.Level.admits_of_node hlevel
  have hbalanced : Trace.Balanced 0 0 (.begins .pass "sema" 0 :: (ms ++
      (facts.map (fun fact => .notes 1 fact.1 fact.2) ++ [.ends 1 []]))) count := .span h.balanced .nil
  have hwithin : Trace.Balanced around begun.size _ (begun.size + count) := hbalanced.within begun.size around
  obtain ⟨u, more, ks, hrun, hsize, hemitted⟩ := Trace.Tracer.run_balanced hwithin haround surroundings hadmits rfl htimed
  refine ⟨u, more, ks.map (·.event), hrun, ?_, hemitted.adds hadmits, hemitted.nested, hemitted.nested.ended_perm, ?_,
    ids, hn, hids, ?_⟩
  · rw [Array.size_append] at hsize
    omega
  · rw [hemitted.fresh, ← hemitted.names, List.length_map]
  · rw [hemitted.names, Trace.openings_within, Trace.openings_span, h.openings_eq]
    simp [Trace.openings]

namespace Manifest

/-- Whatever is loaded and however far it is checked, the check tells spans and points that a tracer for declarations
turns into nested events, whichever spans were begun before and in whichever of them it is told to be. These are the
events that the tracer writes and keeps. -/
theorem check_events_nested (file : SourceFile) (entries : List Entry) :
    ∃ l top, loadAll file entries = .ok l ∧ l.tree.unit? l.unit = some top ∧
      ∀ registry ∈ [none, some l.globals], ∀ reached, ∃ r, check l.tree l.unit registry reached = r ∧
        r.fault = none ∧ ∀ (t : Trace.Tracer) (surroundings : Nat) (begun : Array Trace.Tracer.Begun) (around : Nat)
          (timed : List (Int × Moment)), t.level.admits .node = true → around ≤ begun.size →
          timed.map (·.2) = r.analysis.moments.toList.map (·.within begun.size around) →
          ∃ u more es, Trace.Tracer.run surroundings t begun timed = (u, begun ++ more) ∧
            more.size = r.analysis.spans ∧ Trace.Tracer.Adds t u es ∧
            Program.Traced ⟨l.tree, r.globals⟩
              (Program.Analyzed ⟨l.tree, r.globals⟩ (AnalysisM.reachedDecls top reached) r.analysis.table)
              (Trace.Tracer.currentOf surroundings begun around) t.spanCount es := by
  obtain ⟨l, hload, hl⟩ := loadAll_sound file entries
  obtain ⟨span, hunit⟩ := hl.top
  refine ⟨l, ⟨span, l.tree.loose⟩, hload, hunit, fun registry hr reached => ?_⟩
  obtain ⟨g, ds, hsound, hcheck⟩ := hl.check_eq hr
  have hstart : ({ table := .ofTree l.tree, diagnostics := ds } : Analysis).Sound l.tree := .initial l.tree
  obtain ⟨_, b, hrun, hb, _, ms, hms, hvisits⟩ :=
    ((AnalysisM.analyzeAll_judged_from hsound ⟨span, l.tree.loose⟩ rfl reached hstart rfl).and
      (AnalysisM.analyzeAll_told hsound ⟨span, l.tree.loose⟩ rfl reached hstart rfl)).run_eq
  rw [List.nil_append] at hms
  have hresult : checkWith l.tree l.unit g ds reached = { globals := g, analysis := b } := by
    simp only [checkWith, hunit, hrun]
  obtain ⟨hloose, hn⟩ := AnalysisM.reached_spec hsound ⟨span, l.tree.loose⟩ rfl reached
  refine ⟨_, (hcheck reached).trans hresult, rfl, fun t surroundings begun around timed hlevel haround htimed => ?_⟩
  rw [hms] at htimed
  exact hvisits.traced (Program.visited_nodup hsound hloose hn)
    (fun id => Program.mem_visited_iff hsound hb.table) hlevel surroundings haround
    [("decls", Text.ofNat l.tree.loose.length)] htimed

/-- A check that is canceled after the first class, which has a method. Of the two formals with one name one is
entered, so four spans are told. The ring has fewer slots than there are events. -/
theorem choir_events_nested : ∃ l top r u es, loadAll {} choirEntries = .ok l ∧
    check l.tree l.unit none (some 1) = r ∧
    (Trace.openings r.analysis.moments.toList).length = 4 ∧
    Trace.Tracer.moments { level := .debug, output := some [], ring := some (.empty 3) } 7
      (r.analysis.moments.toList.map fun m => (0, m)) = u ∧
    u.output ≠ some [] ∧ u.snapshot?.map List.length = some 3 ∧
    Trace.Tracer.Adds { level := .debug, output := some [], ring := some (.empty 3) } u es ∧
    Program.Traced ⟨l.tree, r.globals⟩
      (Program.Analyzed ⟨l.tree, r.globals⟩ (AnalysisM.reachedDecls top (some 1)) r.analysis.table) 7 0 es := by
  obtain ⟨l, top, hload, _, h⟩ := check_events_nested {} choirEntries
  obtain ⟨r, hcheck, _, htraced⟩ := h none List.mem_cons_self (some 1)
  obtain ⟨u, more, es, hrun, _, hadds, htraced⟩ := htraced
    { level := .debug, output := some [], ring := some (.empty 3) } 7 #[] 0
    (r.analysis.moments.toList.map fun m => (0, m)) (by decide) (Nat.le_refl 0) (by simp [Trace.Moment.within_zero])
  have hmoments : (loadAll {} choirEntries).toOption.all (fun x => decide
      ((Trace.openings (check x.tree x.unit none (some 1)).analysis.moments.toList).length = 4)) = true := by
    decide +kernel
  rw [hload] at hmoments
  have hfour := of_decide_eq_true hmoments
  rw [hcheck] at hfour
  have hu : Trace.Tracer.moments { level := .debug, output := some [], ring := some (.empty 3) } 7
      (r.analysis.moments.toList.map fun m => (0, m)) = u := by
    rw [Trace.Tracer.moments_eq_run, hrun]
  have hshown : (loadAll {} choirEntries).toOption.all (fun x =>
      let u := Trace.Tracer.moments { level := .debug, output := some [], ring := some (.empty 3) } 7
        ((check x.tree x.unit none (some 1)).analysis.moments.toList.map fun m => (0, m))
      decide (u.output ≠ some [] ∧ u.snapshot?.map List.length = some 3)) = true := by
    decide +kernel
  rw [hload] at hshown
  have hboth := of_decide_eq_true hshown
  rw [hcheck, hu] at hboth
  exact ⟨l, top, r, u, es, hload, hcheck, hfour, hu, hboth.1, hboth.2, hadds, htraced⟩

end Manifest

end DeclCheck
