import DeclCheck.Proofs.Check.ClassScope
import DeclCheck.Proofs.Check.Moves

/-!
# Bodies that are handed over

A body is handed over in the middle of an analysis, when the scope of its function is filled. The function
stands on the top level or in a class whose scope was filled before its members were looked at, and these are
the scopes in which a name of the body is looked up. They do not change any more, so the names of a body stand
for the same declarations when it is handed over and when the analysis is over.
-/
namespace DeclCheck

/-! ## Looking names up -/

namespace ScopeTable

variable {t u : ScopeTable} {tree : Tree}

theorem resolveWithin_zero (t : ScopeTable) (name : NameId) (n : Nat) :
    t.resolveWithin name n 0 = none := by
  cases n <;> rfl

/-- From the scope of a declaration, a name is looked up there and in the scope around it, if what is around
stands on the top level. -/
theorem resolveWithin_eq (h : t.Fits tree) {id : DeclId} {d : Decl} (hd : tree.decl? id = some d)
    (hroot : ∀ e, tree.decl? d.parent = some e → e.parent = 0) {s : Scope}
    (hs : t.scopeOf? id = some s) (name : NameId) (n : Nat) :
    t.resolveWithin name (n + 2) (t.idOf id) = (s.lookup? name).or
      (if s.parent = 0 then none else (t.scopeOf? d.parent).bind (·.lookup? name)) := by
  have hscope : t.scope? (t.idOf id) = some s := hs
  rw [resolveWithin, hscope]
  dsimp only
  cases s.lookup? name with
  | some e => rfl
  | none =>
    rw [Option.none_or]
    by_cases hp : s.parent = 0
    · rw [if_pos hp, hp, resolveWithin_zero]
    · -- The scope around belongs to the declaration around.
      obtain ⟨d', hd', hfits⟩ := h.scopes _ s hscope
      rw [h.linked.owner_eq hs, hd] at hd'
      cases hd'
      obtain ⟨_, r, hr, howner⟩ := hfits.parent hp
      have haround : t.scopeOf? d.parent = some r := by
        rw [scopeOf?, ← howner, h.linked.idOf_owner hr, hr]
      obtain ⟨e, he, hfits'⟩ := h.scopes _ r hr
      have houter : r.parent = 0 := by
        by_contra hne
        exact (hfits'.parent hne).1 (hroot e (howner ▸ he))
      rw [if_neg hp, haround, resolveWithin, hr, Option.bind_some]
      dsimp only
      cases r.lookup? name with
      | some e => rfl
      | none => rw [houter, resolveWithin_zero]

/-- Tables that agree on a declaration and on what is around it look names up alike. -/
theorem resolve?_congr (ht : t.Fits tree) (hu : u.Fits tree) {id : DeclId} {d : Decl}
    (hd : tree.decl? id = some d) (hroot : ∀ e, tree.decl? d.parent = some e → e.parent = 0)
    {s : Scope} (hts : t.scopeOf? id = some s) (hus : u.scopeOf? id = some s)
    (haround : d.parent ≠ 0 → t.scopeOf? d.parent = u.scopeOf? d.parent)
    (name : NameId) (globals : Option Globals) :
    t.resolve? (t.idOf id) name globals = u.resolve? (u.idOf id) name globals := by
  have hsize : ∀ {v : ScopeTable}, v.scopeOf? id = some s → ∃ n, v.scopes.size + 1 = n + 2 := by
    intro v hv
    have hle := numbered?_eq_some hv
    exact ⟨v.scopes.size - 1, by omega⟩
  obtain ⟨m, hm⟩ := hsize hts
  obtain ⟨n, hn⟩ := hsize hus
  have hparent : (if s.parent = 0 then none else (t.scopeOf? d.parent).bind (·.lookup? name)) =
      if s.parent = 0 then none else (u.scopeOf? d.parent).bind (·.lookup? name) := by
    by_cases hp : s.parent = 0
    · rw [if_pos hp, if_pos hp]
    · obtain ⟨d', hd', hfits⟩ := ht.scopes _ s hts
      rw [ht.linked.owner_eq hts, hd] at hd'
      cases hd'
      rw [if_neg hp, if_neg hp, haround (hfits.parent hp).1]
  rw [resolve?, resolve?, hm, hn, resolveWithin_eq ht hd hroot hts, resolveWithin_eq hu hd hroot hus,
    hparent]

end ScopeTable

/-! ## The bodies of a program -/

namespace Program

variable (p : Program)

/-- A function and its body, if it has one. -/
def bodyOf? (id : DeclId) : Option (DeclId × BlockId) :=
  (p.tree.function? id).bind fun g => if g.body = 0 then none else some (id, g.body)

/-- The declarations of a top-level declaration that may have bodies: the members of a class, or itself. -/
def valuesIn (id : DeclId) : List DeclId :=
  match p.tree.class? id with
  | some c => c.members
  | none => [id]

/-- A declaration and the one around it. -/
def Around (id j : DeclId) : Prop := j = id ∨ p.tree.parent? id = some j ∧ j ≠ 0

/-- From `a` to `b` the bodies of some declarations are handed over in order. At each of them a front part of
some scopes is filled, and those that are needed for it are among them. -/
def Handed (needs : DeclId → DeclId → Prop) (values touch : List DeclId) (a b : Analysis) : Prop :=
  ∃ calls, b.bodies.toList = a.bodies.toList ++ calls ∧
    calls.map (fun c => (c.function, c.body)) = values.filterMap p.bodyOf? ∧
    ∀ c ∈ calls, ∃ done, done <+: touch ∧ (∀ j, needs c.function j → j ∈ done) ∧
      c.table.scopeOf? = p.filledBy done a.view

variable {p} {needs : DeclId → DeclId → Prop} {a b c : Analysis}

theorem bodyOf?_fst {id : DeclId} {q : DeclId × BlockId} (h : p.bodyOf? id = some q) : q.1 = id := by
  obtain ⟨g, _, hg⟩ := Option.bind_eq_some_iff.mp h
  split at hg
  · cases hg
  · cases hg
    rfl

/-- Nothing is handed over for declarations without bodies. -/
theorem Handed.none {values : List DeclId} (hnone : values.filterMap p.bodyOf? = []) (touch : List DeclId)
    (h : b.bodies = a.bodies) : p.Handed needs values touch a b :=
  ⟨[], by rw [h, List.append_nil], by rw [hnone]; rfl, by simp⟩

/-- Functions whose bodies are handed over are among the declarations. -/
theorem Handed.mono {values touch : List DeclId} {needs' : DeclId → DeclId → Prop}
    (h : p.Handed needs values touch a b) (hn : ∀ i ∈ values, ∀ j, needs' i j → needs i j) :
    p.Handed needs' values touch a b := by
  obtain ⟨calls, hcalls, hvalues, hdone⟩ := h
  refine ⟨calls, hcalls, hvalues, fun call hcall => ?_⟩
  obtain ⟨done, hprefix, hneeds, htable⟩ := hdone call hcall
  have hmem : (call.function, call.body) ∈ values.filterMap p.bodyOf? := by
    rw [← hvalues]
    exact List.mem_map_of_mem hcall
  obtain ⟨v, hv, hbody⟩ := List.mem_filterMap.mp hmem
  obtain rfl := bodyOf?_fst hbody
  exact ⟨done, hprefix, fun j hj => hneeds j (hn _ hv j hj), htable⟩

theorem Handed.trans {xs ys us vs : List DeclId} (hn : (us ++ vs).Nodup)
    (hview : b.view = p.filledBy us a.view) (h : p.Handed needs xs us a b)
    (k : p.Handed needs ys vs b c) : p.Handed needs (xs ++ ys) (us ++ vs) a c := by
  obtain ⟨calls, hcalls, hvalues, hdone⟩ := h
  obtain ⟨calls', hcalls', hvalues', hdone'⟩ := k
  refine ⟨calls ++ calls', ?_, ?_, fun call hcall => ?_⟩
  · rw [hcalls', hcalls, List.append_assoc]
  · rw [List.map_append, hvalues, hvalues', List.filterMap_append]
  · rcases List.mem_append.mp hcall with hcall | hcall
    · obtain ⟨done, hprefix, hneeds, htable⟩ := hdone call hcall
      exact ⟨done, hprefix.trans (List.prefix_append us vs), hneeds, htable⟩
    · obtain ⟨done, hprefix, hneeds, htable⟩ := hdone' call hcall
      have hfront : us ++ done <+: us ++ vs := (List.prefix_append_right_inj us).mpr hprefix
      refine ⟨us ++ done, hfront, fun j hj => List.mem_append_right _ (hneeds j hj), ?_⟩
      rw [htable, hview, filledBy_append (hn.sublist hfront.sublist)]

end Program

namespace AnalysisM

variable {p : Program} {α : Type} {a : Analysis}

/-- Steps without bodies leave those that were handed over. -/
theorem Steps.keeps_bodies {x : AnalysisM α} (hx : Steps p False True x) {post : α → Analysis → Prop}
    (h : Ends x a post) : Ends x a fun r b => post r b ∧ b.bodies = a.bodies := by
  obtain ⟨r, b, hrun, hpost⟩ := h.run_eq
  obtain ⟨calls, hcalls, _, hmoves⟩ := hx a
  rw [hrun] at hmoves
  rw [ends_of_run hrun]
  have hnone : calls = [] := by
    by_contra hne
    exact hcalls hne
  subst hnone
  have hbodies := hmoves.bodies_eq
  rw [List.append_nil] at hbodies
  exact ⟨hpost, Array.toList_inj.mp hbodies⟩

theorem variable_steps {id : DeclId} {d : Decl} {type : TypeExprId} (hd : p.tree.decl? id = some d)
    (hsub : d.subject = .variable type) (depth : Nat) : Steps p False True (analyzeWithin p depth id) := by
  cases depth with
  | zero => exact .pure _
  | succ depth =>
    rw [analyzeWithin]
    simp only [hd, hsub]
    exact inSpan_steps fun _ => validateType_steps _

theorem interface_steps {id : DeclId} {d : Decl} {ms : List DeclId} (hd : p.tree.decl? id = some d)
    (hsub : d.subject = .interface ms) (depth : Nat) : Steps p False True (analyzeWithin p depth id) := by
  cases depth with
  | zero => exact .pure _
  | succ depth =>
    rw [analyzeWithin]
    simp only [hd, hsub]
    exact inSpan_steps fun _ => (beginScope_steps id).bind fun _ =>
      (Steps.forEach fun m _ => enterMember_steps id m).bind fun _ => .pure _

/-- The bodies of declarations that fill different scopes, one after the other. -/
theorem forIn_handed {f : FileId} {body : DeclId → PUnit → AnalysisM (ForInStep PUnit)}
    (rule : DeclId → Prop) (values touch : DeclId → List DeclId) (needs : DeclId → DeclId → Prop)
    {ids : List DeclId}
    (hbody : ∀ id ∈ ids, ∀ a : Analysis, a.Sound p.tree →
      (∀ j ∈ touch id, a.view j = p.blank j) → Ends (body id ⟨⟩) a fun r b =>
        r = .yield ⟨⟩ ∧ Judged p f a (rule id) (p.filledBy (touch id) a.view) b ∧
          p.Handed needs (values id) (touch id) a b)
    (hn : (ids.flatMap touch).Nodup) (ha : a.Sound p.tree)
    (hv : ∀ j ∈ ids.flatMap touch, a.view j = p.blank j) :
    Ends (forIn ids PUnit.unit body) a fun _ b =>
      Judged p f a (∀ id ∈ ids, rule id) (p.filledBy (ids.flatMap touch) a.view) b ∧
        p.Handed needs (ids.flatMap values) (ids.flatMap touch) a b := by
  refine forIn_filled_along rule touch
    (fun ids a b => p.Handed needs (ids.flatMap values) (ids.flatMap touch) a b)
    (fun a => .none rfl _ rfl) (fun {id ids a b c} hn hview hfirst hrest => ?_) ?_ hn ha hv
  · rw [List.flatMap_singleton, List.flatMap_singleton] at hfirst
    exact hfirst.trans hn hview hrest
  · simpa only [List.flatMap_singleton] using hbody

section Declarations

variable {f : FileId} (hp : p.Sound f)
include hp

/-- A function hands over its body with the table that it leaves. -/
theorem analyze_function_bodies {id : DeclId} {d : Decl} {g : FunctionDecl} {s : Scope}
    (ha : a.Sound p.tree) (hd : p.tree.decl? id = some d)
    (hsub : d.subject = .function g) (hs : a.view id = some s) (he : s.Blank)
    (hfree : s.filled = false) (depth : Nat) :
    Ends (analyzeWithin p (depth + 2) id) a fun _ b => b.bodies.toList = a.bodies.toList ++
      (if g.body = 0 then [] else [⟨id, g.body, b.table⟩]) := by
  obtain ⟨hresult, hformals, hstate, _⟩ := hp.built.fits hd hsub
  have hvariables : ∀ v ∈ g.formals, Steps p False True (analyzeWithin p (depth + 1) v) := by
    intro v hv
    obtain ⟨type, htype⟩ := Option.isSome_iff_exists.mp (hformals v hv)
    obtain ⟨e, he, hvar⟩ := Tree.subject_of_variableType? htype
    exact variable_steps he hvar _
  rw [analyzeWithin]
  simp only [hd, hsub, hstate, ends_inSpan, ends_bind, ne_eq, not_true_eq_false, ↓reduceIte]
  refine ((beginScope_steps (p := p) id).keeps_bodies (beginScope_judged (f := f) (ha.inside _ _) hs
    hfree)).mono fun _ b hbegun => ?_
  obtain ⟨hb, hbb⟩ := hbegun
  have hbv : b.view id = some { s with filled := true } := by rw [hb.table, Function.update_self]
  refine ((formals_steps id hvariables).keeps_bodies (formals_judged hp hb.sound hbv he.filled hformals
    depth)).mono fun _ x hentered => ?_
  obtain ⟨hx, hxb⟩ := hentered
  refine ((validateType_steps g.result).keeps_bodies (validateType_judged hp hx.sound hresult)).mono
    fun _ y hvalidated => ?_
  obtain ⟨_, hyb⟩ := hvalidated
  have hbodies : y.bodies = a.bodies := hyb.trans (hxb.trans hbb)
  by_cases hbody : g.body = 0
  · simp only [hbody, not_true_eq_false, ↓reduceIte, List.append_nil]
    exact congrArg Array.toList hbodies
  · simp only [hbody, not_false_eq_true, ↓reduceIte, ends_modify]
    rw [← hbodies]
    exact Array.toList_push

/-- The body of a member, or of a declaration that is no class. -/
theorem analyze_value_handed {id : DeclId} {d : Decl} (hd : p.tree.decl? id = some d)
    (hvalue : p.tree.isVariable id = true ∨ (p.tree.function? id).isSome)
    (ha : a.Sound p.tree) (hv : a.view id = p.blank id) (depth : Nat) :
    Ends (analyzeWithin p (depth + 2) id) a fun _ b =>
      Judged p f a (p.ValueRule d.subject) (p.filledBy [id] a.view) b ∧
        p.Handed (fun i j => j = i) [id] [id] a b := by
  have hjudged := analyze_value hp hd hvalue ha hv depth
  cases hsub : d.subject with
  | «variable» type =>
    rw [hsub] at hjudged
    refine ((variable_steps hd hsub _).keeps_bodies hjudged).mono fun _ b hkept => ⟨hkept.1, ?_⟩
    have hnone : p.tree.function? id = none := by simp [Tree.function?, hd, Decl.function?, hsub]
    exact .none (by simp [Program.bodyOf?, hnone]) _ hkept.2
  | function g =>
    rw [hsub] at hjudged
    have hblank := ScopeTable.scopeOf?_ofTree hd
    rw [if_neg (by rw [Decl.kind, hsub]; exact DeclKind.noConfusion)] at hblank
    obtain ⟨s, hs, he, hfree⟩ := hblank
    have hfunction : p.tree.function? id = some g := by simp [Tree.function?, hd, Decl.function?, hsub]
    refine (hjudged.and (analyze_function_bodies hp ha hd hsub (hv.trans hs) he hfree depth)).mono
      fun _ b hboth => ⟨hboth.1, _, hboth.2, ?_, ?_⟩
    · by_cases hbody : g.body = 0
      · simp [Program.bodyOf?, hfunction, hbody]
      · simp [Program.bodyOf?, hfunction, hbody]
    · intro call hcall
      split at hcall
      · cases hcall
      · rw [List.mem_singleton.mp hcall]
        exact ⟨[id], List.prefix_refl _, by simp, hboth.1.table⟩
  | «class» c =>
    simp [Tree.isVariable, Tree.variableType?, Tree.function?, hd, Decl.variableType?,
      Decl.function?, hsub] at hvalue
  | interface ms =>
    simp [Tree.isVariable, Tree.variableType?, Tree.function?, hd, Decl.variableType?,
      Decl.function?, hsub] at hvalue

/-- The bodies of the members of a class are handed over when its scope is filled. -/
theorem analyze_class_handed {id : DeclId} {d : Decl} {c : ClassDecl} (hd : p.tree.decl? id = some d)
    (hsub : d.subject = .class c) (ha : a.Sound p.tree)
    (hv : ∀ j ∈ id :: c.members, a.view j = p.blank j) (depth : Nat) :
    Ends (analyzeWithin p (depth + 3) id) a fun _ b =>
      p.Handed p.Around c.members (id :: c.members) a b := by
  have hchildren : p.tree.children id = c.members := Tree.children_of_subject hd hsub
  have hclass : p.tree.class? id = some c := by simp [Tree.class?, hd, Decl.class?, hsub]
  have hn : (id :: c.members).Nodup := by
    have hnodup := touched_nodup hp id
    simpa only [Program.touched, hclass] using hnodup
  obtain ⟨hnot, hnodup⟩ := List.nodup_cons.mp hn
  have hblank := ScopeTable.scopeOf?_ofTree hd
  rw [if_neg (by rw [Decl.kind, hsub]; exact DeclKind.noConfusion)] at hblank
  obtain ⟨s, hs, he, hfree⟩ := hblank
  have hview : a.view id = some s := (hv id (List.mem_cons_self ..)).trans hs
  have hfit := hp.built.fits hd hsub
  rw [analyzeWithin]
  simp only [hd, hsub, ends_inSpan, ends_bind]
  refine ((declareClass_steps (Option.isSome_iff_exists.mpr ⟨d, hd⟩) _ c).keeps_bodies
    (declareClass_judged hp hd hsub (ha.inside _ _) hview he hfree)).mono fun _ x hdeclared => ?_
  obtain ⟨hx, hxb⟩ := hdeclared
  have hfilled : x.view = p.filledBy [id] a.view := by
    rw [hx.table, Analysis.view_inside, Program.filledBy_singleton hview]
  have hxv : ∀ m ∈ c.members, x.view m = p.blank m := by
    intro m hm
    have hne : m ∉ [id] := by
      rw [List.mem_singleton]
      rintro rfl
      exact hnot hm
    rw [hfilled, Program.filledBy, if_neg hne]
    exact hv m (List.mem_cons_of_mem _ hm)
  refine (forIn_handed (p := p) (f := f)
    (fun m => ∀ d, p.tree.decl? m = some d → p.ValueRule d.subject) (fun m => [m]) (fun m => [m])
    (fun i j => j = i) (fun m hm a ha hv => ?_) (by simpa using hnodup) hx.sound
    (by simpa using hxv)).mono fun _ y hmembers => ?_
  · obtain ⟨e, he⟩ := Option.isSome_iff_exists.mp
      (hp.built.isSome_of_mem_children m (hchildren ▸ hm))
    rw [ends_bind]
    refine (analyze_value_handed hp he (hfit.2.2 m hm) ha (by simpa using hv) depth).mono
      fun _ b hboth => ⟨rfl, hboth.1.congr ?_ rfl, hboth.2⟩
    simp [he]
  · obtain ⟨_, hy⟩ := hmembers
    simp only [List.flatMap_singleton'] at hy
    obtain ⟨calls, hcalls, hvalues, hdone⟩ := hy
    rw [hxb] at hcalls
    refine ⟨calls, hcalls, hvalues, fun call hcall => ?_⟩
    obtain ⟨done, hprefix, hneeds, htable⟩ := hdone call hcall
    have hmember : call.function ∈ c.members :=
      hprefix.subset (hneeds _ rfl)
    have hfront : id :: done <+: id :: c.members := List.cons_prefix_cons.mpr ⟨rfl, hprefix⟩
    refine ⟨id :: done, hfront, ?_, ?_⟩
    · rintro j (rfl | ⟨hparent, _⟩)
      · exact List.mem_cons_of_mem _ (hneeds _ rfl)
      · have hchild := (hp.built.child id call.function (hchildren ▸ hmember)).2
        obtain rfl : j = id := Option.some.inj (hparent.symm.trans hchild)
        exact List.mem_cons_self ..
    · rw [htable, hfilled, Program.filledBy_append (hn.sublist hfront.sublist)]
      rfl

/-- The bodies of a declaration of the top level. -/
theorem analyze_root_handed {id : DeclId} (hid : id ∈ p.tree.loose) (ha : a.Sound p.tree)
    (hv : ∀ j ∈ p.touched id, a.view j = p.blank j) :
    Ends (analyze p id) a fun _ b => p.Handed p.Around (p.valuesIn id) (p.touched id) a b := by
  have hparent := Tree.mem_loose.mp hid
  obtain ⟨d, hd, _⟩ := Tree.parent?_eq_some.mp hparent
  -- There is nothing around it, so its own scope is all that is needed.
  have haround : ∀ i ∈ [id], ∀ j, p.Around i j → j = i := by
    intro i hi j hj
    obtain rfl := List.mem_singleton.mp hi
    rcases hj with rfl | ⟨h, hne⟩
    · rfl
    · exact (hne (Option.some.inj (h.symm.trans hparent))).elim
  cases hsub : d.subject with
  | «class» c =>
    have hclass : p.tree.class? id = some c := by simp [Tree.class?, hd, Decl.class?, hsub]
    obtain ⟨k, hk⟩ : ∃ k, p.tree.decls.size = k + 1 := by
      have hle := Tree.decl?_le hd
      exact Nat.exists_eq_add_one.mpr (Nat.lt_of_lt_of_le hle.1 hle.2)
    simp only [Program.touched, Program.valuesIn, hclass] at hv ⊢
    unfold analyze
    rw [hk]
    exact analyze_class_handed hp hd hsub ha hv k
  | interface ms =>
    have hclass : p.tree.class? id = none := by simp [Tree.class?, hd, Decl.class?, hsub]
    have hfunction : p.tree.function? id = none := by simp [Tree.function?, hd, Decl.function?, hsub]
    have hjudged := analyze_judged hp hd ha hv
    refine ((interface_steps hd hsub _).keeps_bodies hjudged).mono fun _ b hkept => ?_
    exact .none (by simp [Program.valuesIn, hclass, Program.bodyOf?, hfunction]) _ hkept.2
  | «variable» type =>
    have hclass : p.tree.class? id = none := by simp [Tree.class?, hd, Decl.class?, hsub]
    have hvalue : p.tree.isVariable id = true := by
      simp [Tree.isVariable, Tree.variableType?, hd, Decl.variableType?, hsub]
    simp only [Program.touched, Program.valuesIn, hclass] at hv ⊢
    exact (analyze_value_handed hp hd (.inl hvalue) ha (by simpa using hv) _).mono
      fun _ b hboth => hboth.2.mono haround
  | function g =>
    have hclass : p.tree.class? id = none := by simp [Tree.class?, hd, Decl.class?, hsub]
    have hvalue : (p.tree.function? id).isSome := by simp [Tree.function?, hd, Decl.function?, hsub]
    simp only [Program.touched, Program.valuesIn, hclass] at hv ⊢
    exact (analyze_value_handed hp hd (.inr hvalue) ha (by simpa using hv) _).mono
      fun _ b hboth => hboth.2.mono haround

/-- The bodies of the top level. -/
theorem analyzeAll_handed (top : TopLevel) (htop : top.decls = p.tree.loose)
    (ha : a.Sound p.tree) (hv : a.view = p.blank) :
    Ends (analyzeAll p top none) a fun _ b =>
      p.Handed p.Around (p.tree.loose.flatMap p.valuesIn) (p.tree.loose.flatMap p.touched) a b := by
  rw [analyzeAll_eq, reachedDecls, htop]
  simp only [ends_inSpan, ends_bind]
  refine (forIn_handed (p := p) (f := f)
    (fun id => ∀ d, p.tree.decl? id = some d → p.Rule id d.subject) p.valuesIn p.touched p.Around
    (fun id hid a ha hv => ?_) (loose_touched_nodup hp) (ha.inside _ _) fun j _ => congrFun hv j).mono
    fun _ b hhanded => ?_
  · have hhanded : Ends (do analyze p id; pure (ForInStep.yield PUnit.unit)) a fun _ b =>
        p.Handed p.Around (p.valuesIn id) (p.touched id) a b := by
      rw [ends_bind]
      exact analyze_root_handed hp hid ha hv
    exact ((analyze_root hp hid ha hv).and hhanded).mono
      fun r b hboth => ⟨hboth.1.1, hboth.1.2, hboth.2⟩
  · exact hhanded.2

end Declarations

end AnalysisM

/-! ## Checks -/

/-- The bodies of a top level are handed over in order and once each, with a filled scope that binds the first
formal of each name, and every name is looked up from there as it is when the analysis is over. -/
structure Program.HandsOver (p : Program) (top : TopLevel) (b : Analysis) : Prop where
  order : b.bodies.toList.map (fun c => (c.function, c.body)) =
    (top.decls.flatMap p.valuesIn).filterMap p.bodyOf?
  once : ∀ id g, p.tree.function? id = some g → g.body ≠ 0 →
    (id ∈ top.decls ∨ ∃ cls c, p.tree.class? cls = some c ∧ id ∈ c.members) →
      (b.bodies.toList.map (·.function)).count id = 1
  formals : ∀ c ∈ b.bodies, ∃ g s, p.tree.function? c.function = some g ∧
    c.table.scopeOf? c.function = some s ∧ s.filled = true ∧
      s.entries = Binding.firsts (g.formals.map p.tree.bindingOf)
  final : ∀ c ∈ b.bodies, c.table.idOf c.function = b.table.idOf c.function ∧
    ∀ name globals, c.table.resolve? (c.table.idOf c.function) name globals =
      b.table.resolve? (b.table.idOf c.function) name globals

namespace Program

variable {p : Program}

theorem map_fst_bodies (ids : List DeclId) :
    (ids.filterMap p.bodyOf?).map (·.1) = ids.filter fun id => (p.bodyOf? id).isSome := by
  induction ids with
  | nil => rfl
  | cons id ids ih =>
    cases hbody : p.bodyOf? id with
    | none => simp [hbody, ih]
    | some q => simp [hbody, ih, bodyOf?_fst hbody]

/-- What may have a body has a scope to fill. -/
theorem valuesIn_sublist (id : DeclId) : (p.valuesIn id).Sublist (p.touched id) := by
  unfold valuesIn touched
  cases p.tree.class? id with
  | none => exact List.Sublist.refl _
  | some c => exact List.sublist_cons_self id _

theorem values_sublist (ids : List DeclId) :
    (ids.flatMap p.valuesIn).Sublist (ids.flatMap p.touched) := by
  induction ids with
  | nil => exact List.Sublist.refl _
  | cons id ids ih => exact (valuesIn_sublist id).append ih

variable {f : FileId} (hp : p.Sound f)
include hp

theorem mem_values {id : DeclId} {g : FunctionDecl} (hg : p.tree.function? id = some g)
    (h : id ∈ p.tree.loose ∨ ∃ cls c, p.tree.class? cls = some c ∧ id ∈ c.members) :
    id ∈ p.tree.loose.flatMap p.valuesIn := by
  rw [List.mem_flatMap]
  rcases h with h | ⟨cls, c, hc, hmem⟩
  · obtain ⟨d, hd, hsub⟩ := Tree.subject_of_function? hg
    have hclass : p.tree.class? id = none := by simp [Tree.class?, hd, Decl.class?, hsub]
    exact ⟨id, h, by simp [valuesIn, hclass]⟩
  · obtain ⟨d, hd, hsub⟩ := Tree.subject_of_class? hc
    refine ⟨cls, hp.built.mem_loose_of_namesType hd (by rw [Decl.kind, hsub]; rfl), ?_⟩
    simpa only [valuesIn, hc] using hmem

/-- What is around a declaration of the top level or of a class stands on the top level. -/
theorem parent_of_mem_values {id : DeclId} (h : id ∈ p.tree.loose.flatMap p.valuesIn) {d e : Decl}
    (hd : p.tree.decl? id = some d) (he : p.tree.decl? d.parent = some e) : e.parent = 0 := by
  have hparent : p.tree.parent? id = some d.parent := Tree.parent?_eq_some.mpr ⟨d, hd, rfl⟩
  obtain ⟨x, hx, hmem⟩ := List.mem_flatMap.mp h
  have htouched := AnalysisM.mem_touched hp ((valuesIn_sublist x).subset hmem)
  rcases htouched with rfl | hx'
  · rw [Tree.mem_loose.mp hx] at hparent
    rw [← Option.some.inj hparent] at he
    cases he
  · obtain rfl : x = d.parent := Option.some.inj (hx'.symm.trans hparent)
    obtain ⟨e', he', h0⟩ := Tree.parent?_eq_some.mp (Tree.mem_loose.mp hx)
    cases he.symm.trans he'
    exact h0

/-- A body is handed over once. -/
theorem count_of_mem_values {calls : List BodyCall}
    (hcalls : calls.map (fun c => (c.function, c.body)) =
      (p.tree.loose.flatMap p.valuesIn).filterMap p.bodyOf?)
    {id : DeclId} {g : FunctionDecl} (hg : p.tree.function? id = some g) (hbody : g.body ≠ 0)
    (h : id ∈ p.tree.loose ∨ ∃ cls c, p.tree.class? cls = some c ∧ id ∈ c.members) :
    (calls.map (·.function)).count id = 1 := by
  have hfunctions : calls.map (·.function) =
      (p.tree.loose.flatMap p.valuesIn).filter fun id => (p.bodyOf? id).isSome := by
    rw [← map_fst_bodies, ← hcalls, List.map_map]
    rfl
  have hnodup : (p.tree.loose.flatMap p.valuesIn).Nodup :=
    (AnalysisM.loose_touched_nodup hp).sublist (values_sublist _)
  have hsome : (p.bodyOf? id).isSome := by simp [bodyOf?, hg, hbody]
  rw [hfunctions]
  exact List.count_eq_one_of_mem (hnodup.filter _) (List.mem_filter.mpr ⟨mem_values hp hg h, hsome⟩)

omit hp in
/-- The scope of a function binds the first formal of each name. -/
theorem entries_filledBy {ids : List DeclId} {id : DeclId} {g : FunctionDecl}
    (hg : p.tree.function? id = some g) (hid : id ∈ ids) :
    ∃ s, p.filledBy ids p.blank id = some s ∧ s.filled = true ∧
      s.entries = Binding.firsts (g.formals.map p.tree.bindingOf) := by
  obtain ⟨d, hd, hsub⟩ := Tree.subject_of_function? hg
  have hblank := ScopeTable.scopeOf?_ofTree hd
  rw [if_neg (by rw [Decl.kind, hsub]; exact DeclKind.noConfusion)] at hblank
  obtain ⟨s, hs, he, _⟩ := hblank
  have hvisible : p.visible id = g.formals := by
    simp [visible, Tree.class?, hd, Decl.class?, hsub, Tree.children_of_subject hd hsub,
      Subject.children]
  refine ⟨p.fill id s, by rw [filledBy, if_pos hid, blank, hs]; rfl, Scope.enterAll_filled _ _ _, ?_⟩
  rw [fill, he.filled.indexed.entries_enterAll, hvisible, he.filled.entries, List.nil_append]

/-- A table that has filled a function and what is around it looks names up like any other that has. -/
theorem resolve?_of_filled {t u : ScopeTable} (ht : t.Fits p.tree) (hu : u.Fits p.tree)
    {xs ys : List DeclId} (htable : t.scopeOf? = p.filledBy xs p.blank)
    (hutable : u.scopeOf? = p.filledBy ys p.blank) {id : DeclId} {g : FunctionDecl}
    (hg : p.tree.function? id = some g) (hvalue : id ∈ p.tree.loose.flatMap p.valuesIn)
    (hxs : ∀ j, p.Around id j → j ∈ xs) (hys : ∀ j, p.Around id j → j ∈ ys)
    (name : NameId) (globals : Option Globals) :
    t.resolve? (t.idOf id) name globals = u.resolve? (u.idOf id) name globals := by
  obtain ⟨d, hd, _⟩ := Tree.subject_of_function? hg
  have hagree : ∀ j, p.Around id j → t.scopeOf? j = u.scopeOf? j := by
    intro j hj
    rw [htable, hutable, filledBy, filledBy, if_pos (hxs j hj), if_pos (hys j hj)]
  obtain ⟨s, hs, _⟩ := entries_filledBy hg (hxs id (.inl rfl))
  rw [← htable] at hs
  refine ScopeTable.resolve?_congr ht hu hd (fun e he => parent_of_mem_values hp hvalue hd he) hs
    ((hagree id (.inl rfl)).symm.trans hs) (fun hne => hagree _ (.inr ⟨?_, hne⟩)) name globals
  exact Tree.parent?_eq_some.mpr ⟨d, hd, rfl⟩

end Program

theorem checkWith_handsOver {tree : Tree} {unit : UnitId} {g : Globals} {f : FileId} {top : TopLevel}
    (hp : Program.Sound f ⟨tree, g⟩) (hunit : tree.unit? unit = some top) (htop : top.decls = tree.loose)
    (ds : Array Diagnostic) :
    ∃ b, checkWith tree unit g ds none = { globals := g, analysis := b } ∧
      Program.HandsOver ⟨tree, g⟩ top b := by
  have hstart : ({ table := .ofTree tree, diagnostics := ds } : Analysis).Sound tree := .initial tree
  obtain ⟨_, b, hrun, hb, calls, hcalls, hvalues, hdone⟩ :=
    ((AnalysisM.analyzeAll_judged_from hp top htop none
      hstart rfl).and
      (AnalysisM.analyzeAll_handed hp top htop hstart rfl)).run_eq
  rw [List.nil_append] at hcalls
  obtain ⟨moved, _, _, hmoves⟩ := AnalysisM.analyzeAll_steps (p := ⟨tree, g⟩) top none
    { table := .ofTree tree, diagnostics := ds }
  rw [hrun] at hmoves
  have hmoved : calls = moved := by
    rw [← hcalls, hmoves.bodies_eq]
    rfl
  subst hmoved
  obtain ⟨hfits, hcallFits⟩ := hmoves.fits (.ofTree tree)
  obtain ⟨hid, hcallId⟩ := hmoves.idOf_eq
  have hmem : ∀ c ∈ b.bodies, c ∈ calls := by
    intro c hc
    rw [← hcalls]
    exact hc.val
  have hbody : ∀ c ∈ calls, c.function ∈ tree.loose.flatMap (Program.valuesIn ⟨tree, g⟩) ∧
      ∃ fn, tree.function? c.function = some fn := by
    intro c hc
    have hpair : (c.function, c.body) ∈ _ := hvalues ▸ List.mem_map_of_mem hc
    obtain ⟨v, hv, hbody⟩ := List.mem_filterMap.mp hpair
    obtain rfl := Program.bodyOf?_fst hbody
    obtain ⟨fn, hfn, _⟩ := Option.bind_eq_some_iff.mp hbody
    exact ⟨hv, fn, hfn⟩
  refine ⟨b, by simp only [checkWith, hunit, hrun], ?_, ?_, fun c hc => ?_, fun c hc => ?_⟩
  · rw [hcalls, htop]
    exact hvalues
  · intro id fn hfn hne hplace
    rw [hcalls]
    exact Program.count_of_mem_values hp hvalues hfn hne (htop ▸ hplace)
  · obtain ⟨_, fn, hfn⟩ := hbody c (hmem c hc)
    obtain ⟨done, _, hneeds, htable⟩ := hdone c (hmem c hc)
    obtain ⟨s, hs, hfilled, hentries⟩ := Program.entries_filledBy (p := ⟨tree, g⟩) hfn (hneeds _ (.inl rfl))
    exact ⟨fn, s, hfn, (congrFun htable _).trans hs, hfilled, hentries⟩
  · obtain ⟨hvalue, fn, hfn⟩ := hbody c (hmem c hc)
    obtain ⟨done, hprefix, hneeds, htable⟩ := hdone c (hmem c hc)
    refine ⟨by rw [hcallId c (hmem c hc), hid], fun name globals => ?_⟩
    refine Program.resolve?_of_filled hp (hcallFits c (hmem c hc)) hfits htable hb.table hfn hvalue hneeds
      (fun j hj => ?_) name globals
    rw [AnalysisM.reachedDecls, htop]
    exact hprefix.subset (hneeds j hj)

namespace Manifest

/-- A class extends one that is declared later, and a method of it has two formals of one name. -/
def choirEntries : List Entry :=
  let word (s : String) : Yaml.Node := .scalar (.on 1 1) [] .plain (Text.ofString s)
  let typed (name type : String) : FormalEntry :=
    { node := word name, name := some (word name), type := some (word type) }
  let method (name : String) (formals : List FormalEntry) : Entry :=
    { node := word name, fn := some (word name), body := some (word "true"), formals }
  let field (name type : String) : Entry :=
    { node := word name, var := some (word name), type := some (word type) }
  [{ node := word "Solo", cls := some (word "Solo"), base := some (word "Choir"),
     members := [method "sing" [typed "note" "int", typed "note" "Choir"]] },
    method "tune" [], { node := word "silent", fn := some (word "silent") },
    { node := word "Choir", cls := some (word "Choir"), members := [field "hall" "int", method "rest" []] }]

end Manifest

end DeclCheck
