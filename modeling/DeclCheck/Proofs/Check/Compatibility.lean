import DeclCheck.Proofs.Check.Inheritance

/-!
# What the search for a subtype finds

The search goes from a class to its base until something ends it: a class that names the goal, a base that
is not there, or a class that was visited. It has no other bound, and it comes to an end. Cutting it at a
visited class loses nothing: if any sequence of classes leads to one that names the goal, however often it
goes around a cycle, then the search finds such a class.
-/
namespace DeclCheck

namespace Program

variable {p : Program}

/-! ## The search without a bound -/

/-- From a class, with the classes that were visited before, the search comes to an answer. -/
inductive Search (p : Program) (goal : Decl) : List DeclId → DeclId → Bool → Prop
  | stray {visited : List DeclId} {id : DeclId} (hc : p.tree.class? id = none) :
      Search p goal visited id false
  | again {visited : List DeclId} {id : DeclId} (hv : id ∈ visited) : Search p goal visited id false
  | named {visited : List DeclId} {id : DeclId} {c : ClassDecl} (hc : p.tree.class? id = some c)
      (hv : id ∉ visited) (hn : p.Names goal c) : Search p goal visited id true
  | last {visited : List DeclId} {id : DeclId} {c : ClassDecl} (hc : p.tree.class? id = some c)
      (hn : ¬ p.Names goal c) (hb : p.resolveType? c.base = none) : Search p goal visited id false
  | on {visited : List DeclId} {id base : DeclId} {c : ClassDecl} {answer : Bool}
      (hc : p.tree.class? id = some c) (hv : id ∉ visited) (hn : ¬ p.Names goal c)
      (hb : p.resolveType? c.base = some base) (rest : Search p goal (id :: visited) base answer) :
      Search p goal visited id answer

/-- The question whether a class may be used where a declaration is expected comes to an answer. -/
inductive Asked (p : Program) (cls target : DeclId) : Bool → Prop
  | refused (h : ∀ goal, p.tree.decl? target = some goal → goal.kind.namesType = false) :
      Asked p cls target false
  | searched {goal : Decl} {answer : Bool} (hd : p.tree.decl? target = some goal)
      (hk : goal.kind.namesType = true) (h : p.Search goal [] cls answer) : Asked p cls target answer

theorem Search.unique {goal : Decl} {visited : List DeclId} {id : DeclId} {x y : Bool}
    (hx : p.Search goal visited id x) (hy : p.Search goal visited id y) : x = y := by
  induction hx generalizing y with
  | stray hc => cases hy <;> simp_all
  | again hv => cases hy <;> simp_all
  | named hc hv hn => cases hy <;> simp_all
  | last hc hn hb => cases hy <;> simp_all
  | on hc hv hn hb _ ih =>
    cases hy with
    | stray hc' => simp [hc] at hc'
    | again hv' => exact (hv hv').elim
    | named hc' _ hn' =>
      cases hc.symm.trans hc'
      exact (hn hn').elim
    | last hc' _ hb' =>
      cases hc.symm.trans hc'
      simp [hb] at hb'
    | on hc' _ _ hb' rest =>
      cases hc.symm.trans hc'
      cases hb.symm.trans hb'
      exact ih rest

theorem Asked.unique {cls target : DeclId} {x y : Bool} (hx : p.Asked cls target x)
    (hy : p.Asked cls target y) : x = y := by
  cases hx with
  | refused h =>
    cases hy with
    | refused _ => rfl
    | searched hd hk _ => simp [h _ hd] at hk
  | searched hd hk h =>
    cases hy with
    | refused h' => simp [h' _ hd] at hk
    | searched hd' _ h' =>
      cases hd.symm.trans hd'
      exact h.unique h'

/-- At a class that does not name the goal, the search with a bound goes on at the base. -/
theorem reaches_succ {goal : Decl} {fuel : Nat} {visited : List DeclId} {id : DeclId} {c : ClassDecl}
    (hc : p.tree.class? id = some c) (hv : id ∉ visited) (hn : ¬ p.Names goal c) :
    p.reaches goal (fuel + 1) visited id =
      (p.resolveType? c.base).elim false (p.reaches goal fuel (id :: visited)) := by
  obtain ⟨hlist, hbase⟩ := not_or.mp hn
  have hlisted : (goal.kind == .interface && c.implements.any (p.namesType · goal.name.name)) = false := by
    rw [Bool.eq_false_iff]
    intro h
    simp only [Bool.and_eq_true, beq_iff_eq, List.any_eq_true] at h
    exact hlist h
  have hnamed : (goal.kind == .class && p.namesType c.base goal.name.name) = false := by
    rw [Bool.eq_false_iff]
    intro h
    simp only [Bool.and_eq_true, beq_iff_eq] at h
    exact hbase h
  by_cases hzero : c.base = 0
  · have hnone : p.resolveType? 0 = none := rfl
    simp [reaches, hc, hv, hlisted, hzero, hnone]
  · cases hb : p.resolveType? c.base <;> simp [reaches, hc, hv, hlisted, hnamed, hzero, hb]

/-- The bound is not reached: each class is visited once, and there are no more classes than declarations. -/
theorem search_reaches {goal : Decl} {fuel : Nat} {visited : List DeclId} (hn : visited.Nodup)
    (hclasses : ∀ a ∈ visited, (p.tree.class? a).isSome)
    (hfuel : p.tree.decls.size < fuel + visited.length) (id : DeclId) :
    p.Search goal visited id (p.reaches goal fuel visited id) := by
  -- What is left of the bound and the visited classes together exceed the declarations.
  induction fuel generalizing visited id with
  | zero =>
    have hle := length_le_of_classes hn hclasses
    omega
  | succ fuel ih =>
    cases hc : p.tree.class? id with
    | none =>
      simp only [reaches, hc]
      exact .stray hc
    | some c =>
      by_cases hv : id ∈ visited
      · simp only [reaches, hc, List.contains_iff_mem, hv, if_true]
        exact .again hv
      by_cases hnames : p.Names goal c
      · rw [reaches_of_names hc hv hnames]
        exact .named hc hv hnames
      rw [reaches_succ hc hv hnames]
      cases hb : p.resolveType? c.base with
      | none => exact .last hc hnames hb
      | some base =>
        refine .on hc hv hnames hb (ih (List.nodup_cons.mpr ⟨hv, hn⟩) ?_ ?_ base)
        · simpa [hc] using hclasses
        · rw [List.length_cons]
          omega

theorem isCompatible_asked (cls target : DeclId) : p.Asked cls target (p.isCompatible cls target) := by
  cases hd : p.tree.decl? target with
  | none =>
    simp only [isCompatible, hd]
    exact .refused (by simp [hd])
  | some goal =>
    cases hk : goal.kind.namesType with
    | false =>
      simp only [isCompatible, hd, hk, Bool.false_eq_true, if_false]
      exact .refused (by simp [hd, hk])
    | true =>
      simp only [isCompatible, hd, hk, if_true]
      exact .searched hd hk (search_reaches List.nodup_nil (by simp) (by simp) cls)

/-! ## Sequences of classes -/

/-- Classes in a row, each naming the next one as its base. A class may come more than once. -/
structure Leads (p : Program) (a b : DeclId) (ids : List DeclId) : Prop where
  starts : ids.head? = some a
  linked : ids.IsChain fun a b => p.superclass? a = some b
  ends : ids.getLast? = some b

theorem Leads.append {a b c d : DeclId} {xs ys : List DeclId} (hx : p.Leads a b xs)
    (hbc : p.superclass? b = some c) (hy : p.Leads c d ys) : p.Leads a d (xs ++ ys) := by
  refine ⟨?_, List.isChain_append.mpr ⟨hx.linked, hy.linked, ?_⟩, ?_⟩
  · rw [List.head?_append, hx.starts]
    rfl
  · intro x hx' y hy'
    cases hx.ends.symm.trans hx'
    cases hy.starts.symm.trans hy'
    exact hbc
  · rw [List.getLast?_append, hy.ends]
    rfl

theorem leads_of_mem_chain {id a : DeclId} {ids : List DeclId} (h : p.ExtendsChain id ids) (ha : a ∈ ids) :
    ∃ xs, p.Leads id a xs := by
  obtain ⟨pre, post, rfl⟩ := List.append_of_mem ha
  have hsplit : pre ++ a :: post = (pre ++ [a]) ++ post := by simp
  have hstarts := h.starts
  have hlinked := h.linked
  rw [hsplit] at hlinked
  refine ⟨pre ++ [a], ?_, hlinked.left_of_append, List.getLast?_concat ..⟩
  cases pre <;> exact hstarts

/-- What is led to from a class is on its chain, also if the sequence goes around a cycle. -/
theorem mem_chain_of_leads {id a : DeclId} {ids xs : List DeclId} (h : p.ExtendsChain id ids)
    (hx : p.Leads id a xs) : a ∈ ids := by
  obtain ⟨rest, rfl⟩ := List.head?_eq_some_iff.mp hx.starts
  have hid : id ∈ ids := List.mem_of_mem_head? h.starts
  exact h.mem_of_linked hx.linked hid a (List.mem_of_mem_getLast? hx.ends)

theorem class?_of_leads {id a : DeclId} {xs : List DeclId} {k : ClassDecl} (hx : p.Leads id a xs)
    (hk : p.tree.class? a = some k) : ∃ c, p.tree.class? id = some c := by
  obtain ⟨rest, rfl⟩ := List.head?_eq_some_iff.mp hx.starts
  cases rest with
  | nil =>
    cases hx.ends
    exact ⟨k, hk⟩
  | cons b rest =>
    obtain ⟨c, _, _, hc, _⟩ := superclass?_eq_some.mp (List.isChain_cons_cons.mp hx.linked).1
    exact ⟨c, hc⟩

/-- A class may be used as a goal exactly if some sequence of classes leads to one that names the goal. -/
theorem isCompatible_iff_leads {cls target : DeclId} : p.isCompatible cls target = true ↔
    ∃ goal, p.tree.decl? target = some goal ∧ ∃ a k ids, p.Leads cls a ids ∧
      p.tree.class? a = some k ∧ p.Names goal k := by
  constructor
  · intro h
    cases hd : p.tree.decl? target with
    | none => simp [isCompatible, hd] at h
    | some goal =>
      cases hk : goal.kind.namesType with
      | false => simp [isCompatible, hd, hk] at h
      | true =>
        simp only [isCompatible, hd, hk, if_true] at h
        cases hc : p.tree.class? cls with
        | none => simp [reaches, hc] at h
        | some c =>
          obtain ⟨a, ha, k, hk, hnames⟩ := (reaches_iff_names hc).mp h
          obtain ⟨ids, hids⟩ := leads_of_mem_chain (bases_chain hc).1 ha
          exact ⟨goal, rfl, a, k, ids, hids, hk, hnames⟩
  · rintro ⟨goal, hd, a, k, ids, hids, hk, hnames⟩
    obtain ⟨c, hc⟩ := class?_of_leads hids hk
    have ha := mem_chain_of_leads (bases_chain hc).1 hids
    have hkind : goal.kind.namesType = true := by
      rcases hnames with ⟨h, _⟩ | ⟨h, _⟩ <;> rw [h] <;> rfl
    simp only [isCompatible, hd, hkind, if_true]
    exact (reaches_iff_names hc).mpr ⟨a, ha, k, hk, hnames⟩

/-- A class that names another one as its base has it as its superclass, if the name stands for it. -/
theorem superclass?_of_names {a b : DeclId} {goal : Decl} {k c : ClassDecl} (hk : p.tree.class? a = some k)
    (hc : p.tree.class? b = some c) (hd : p.tree.decl? b = some goal) (hn : p.Names goal k)
    (hown : p.globals.lookup? (p.tree.nameIdOf b) = some b) : p.superclass? a = some b := by
  rw [Tree.nameIdOf_eq hd] at hown
  rcases hn with ⟨hkind, _⟩ | ⟨_, hbase⟩
  · obtain ⟨d, hd', hsub⟩ := Tree.subject_of_class? hc
    cases hd.symm.trans hd'
    rw [Decl.kind, hsub] at hkind
    cases hkind
  · obtain ⟨ident, hident, hlookup⟩ := resolve_of_namesType hown hbase
    exact superclass?_eq_some.mpr ⟨k, ident, c, hk, hident, hlookup, hc⟩

/-- The question whether a class may be used as another declaration comes to one answer. It is yes exactly if
the other is a class that is named as the base, or an interface that is listed, by the last of some classes in
a row, each the base of the one before. So it is transitive through a class that its own name stands for. -/
theorem compatible_iff_some_row_names (p : Program) :
    (∀ cls target answer, p.Asked cls target answer ↔ answer = p.isCompatible cls target) ∧
    (∀ cls target, p.isCompatible cls target = true ↔
      ∃ goal, p.tree.decl? target = some goal ∧ ∃ a k ids, p.Leads cls a ids ∧
        p.tree.class? a = some k ∧
        (goal.kind = .interface ∧ (∃ i ∈ k.implements, p.namesType i goal.name.name = true) ∨
          goal.kind = .class ∧ p.namesType k.base goal.name.name = true)) ∧
    ∀ a b c, p.globals.lookup? (p.tree.nameIdOf b) = some b → p.isCompatible a b = true →
      p.isCompatible b c = true → p.isCompatible a c = true := by
  refine ⟨fun cls target answer => ⟨fun h => h.unique (isCompatible_asked cls target), ?_⟩,
    fun cls target => isCompatible_iff_leads, fun a b c hown hab hbc => ?_⟩
  · rintro rfl
    exact isCompatible_asked cls target
  · obtain ⟨goal, hd, x, k, xs, hx, hk, hnames⟩ := isCompatible_iff_leads.mp hab
    obtain ⟨goal', hd', y, k', ys, hy, hk', hnames'⟩ := isCompatible_iff_leads.mp hbc
    obtain ⟨d, hclass⟩ := class?_of_leads hy hk'
    have hsuper := superclass?_of_names hk hclass hd hnames hown
    exact isCompatible_iff_leads.mpr ⟨goal', hd', y, k', _, hx.append hsuper hy, hk', hnames'⟩

/-- A class below two classes that extend each other, and an interface that only the last of them lists. -/
def orbit : Program :=
  let decl (name : NameId) (subject : Subject) : Decl := { name := { name }, span := {}, subject }
  { tree :=
      { decls := #[decl 1 (.class { base := 2 }), decl 2 (.class { base := 3 }),
          decl 3 (.class { base := 2, implements := [4] }), decl 4 (.interface [])]
        types := #[.named { name := 1 }, .named { name := 2 }, .named { name := 3 },
          .named { name := 4 }] }
    globals := ⟨[⟨1, 1⟩, ⟨2, 2⟩, ⟨3, 3⟩, ⟨4, 4⟩]⟩ }

/-- The first class may be used as the interface, and each of the two as itself, but not as the first. -/
theorem orbit_compatible : orbit.globals.lookup? (orbit.tree.nameIdOf 2) = some 2 ∧
    orbit.isCompatible 1 2 = true ∧ orbit.isCompatible 2 4 = true ∧ orbit.isCompatible 1 4 = true ∧
    orbit.Asked 2 2 true ∧ orbit.Asked 2 1 false := by
  obtain ⟨hasked, _, htrans⟩ := compatible_iff_some_row_names orbit
  have hown : orbit.globals.lookup? (orbit.tree.nameIdOf 2) = some 2 := by decide
  have hbase : orbit.isCompatible 1 2 = true := by decide
  have hlisted : orbit.isCompatible 2 4 = true := by decide
  exact ⟨hown, hbase, hlisted, htrans 1 2 4 hown hbase hlisted, (hasked 2 2 true).mpr (by decide),
    (hasked 2 1 false).mpr (by decide)⟩

end Program

end DeclCheck
