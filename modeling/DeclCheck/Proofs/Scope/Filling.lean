import DeclCheck.Scope
import DeclCheck.Proofs.Tree.Building
import Mathlib.Logic.Function.Basic

/-!
# Filling scopes

A scope that is filled from a list of declarations finds, for each name, the first of them with that
name, and its index and its bindings stay the same map. A table of scopes is looked at through the scope
of each declaration; while the map of owners leads to their scopes, changing the scope of one declaration
changes what is found there and nowhere else.
-/
namespace DeclCheck

namespace NumberMap

variable {m : NumberMap}

theorem get?_eq_some {key value : Nat} : m.get? key = some value ↔ (key, value) ∈ m.pairs := by
  unfold get?
  rw [List.lookup_eq_some_iff]
  constructor
  · rintro ⟨before, after, hpairs, _⟩
    simp [hpairs]
  · intro hmem
    obtain ⟨before, after, hpairs⟩ := List.append_of_mem hmem
    refine ⟨before, after, hpairs, fun entry hentry => ?_⟩
    have hnodup := m.nodup
    rw [hpairs, List.map_append, List.map_cons, List.nodup_append] at hnodup
    simpa using (hnodup.2.2 entry.1 (List.mem_map_of_mem hentry) key (List.mem_cons_self ..)).symm

theorem get?_insert (m : NumberMap) (key value k : Nat) :
    (m.insert key value).get? k = if k = key then some value else m.get? k := by
  by_cases hk : k = key
  · simp [hk, get?_eq_some, insert]
  · refine Option.ext fun v => ?_
    rw [if_neg hk, get?_eq_some, get?_eq_some]
    simp [insert, hk]

theorem size_insert {key : Nat} (h : m.get? key = none) (value : Nat) :
    (m.insert key value).size = m.size + 1 := by
  have hkeep : m.pairs.filter (·.1 != key) = m.pairs := by
    refine List.filter_eq_self.mpr fun entry hentry => ?_
    rw [bne_iff_ne]
    rintro rfl
    rw [get?_eq_some.mpr hentry] at h
    cases h
  simp [size, insert, hkeep]

end NumberMap

/-- The name of a declaration, as a number; zero if there is no such declaration. -/
def Tree.nameIdOf (t : Tree) (id : DeclId) : NameId := ((t.decl? id).map (·.name.name)).getD 0

theorem Tree.nameIdOf_eq {t : Tree} {id : DeclId} {d : Decl} (h : t.decl? id = some d) :
    t.nameIdOf id = d.name.name := by
  simp [nameIdOf, h]

/-- The first of some declarations with a name. -/
def Tree.first? (t : Tree) (ids : List DeclId) (name : NameId) : Option DeclId :=
  ids.find? fun id => t.nameIdOf id == name

theorem Tree.first?_append (t : Tree) (xs ys : List DeclId) (n : NameId) :
    t.first? (xs ++ ys) n = (t.first? xs n).or (t.first? ys n) := List.find?_append

theorem Tree.first?_eq_some {t : Tree} {ids : List DeclId} {n : NameId} {e : DeclId}
    (h : t.first? ids n = some e) : e ∈ ids ∧ t.nameIdOf e = n :=
  ⟨List.mem_of_find?_eq_some h, by simpa using List.find?_some h⟩

theorem Tree.first?_eq_none {t : Tree} {ids : List DeclId} {n : NameId} :
    t.first? ids n = none ↔ ∀ id ∈ ids, t.nameIdOf id ≠ n := by
  simp [first?, List.find?_eq_none]

namespace Scope

/-- Enters declarations in order, each unless its name is bound. -/
def enterAll (t : Tree) (s : Scope) (ids : List DeclId) : Scope :=
  ids.foldl (fun s id => s.enter (t.nameIdOf id) id) s

variable {t : Tree} {s : Scope}

theorem lookup?_enter (s : Scope) (name : NameId) (id : DeclId) (n : NameId) :
    (s.enter name id).lookup? n = (s.lookup? n).or (if name = n then some id else none) := by
  unfold enter
  by_cases hb : (s.lookup? name).isSome
  · rw [if_pos hb]
    by_cases hn : name = n
    · subst hn
      cases h : s.lookup? name with
      | none => simp [h] at hb
      | some e => rfl
    · simp [hn]
  · rw [if_neg hb]
    unfold lookup? at hb ⊢
    rw [NumberMap.get?_insert]
    by_cases hn : name = n
    · simp [← hn, Option.not_isSome_iff_eq_none.mp hb]
    · simp [hn, Ne.symm hn]

theorem enter_eq_self {name : NameId} {e id : DeclId} (h : s.lookup? name = some e) :
    s.enter name id = s := by
  simp [enter, h]

theorem enter_owner (s : Scope) (name : NameId) (id : DeclId) :
    (s.enter name id).owner = s.owner := by
  unfold enter
  split <;> rfl

theorem enterAll_append (t : Tree) (s : Scope) (xs ys : List DeclId) :
    s.enterAll t (xs ++ ys) = (s.enterAll t xs).enterAll t ys := List.foldl_append

theorem foldl_enterAll (t : Tree) (s : Scope) (xs : List DeclId) :
    xs.foldl (fun s x => s.enterAll t (t.children x)) s = s.enterAll t (xs.flatMap t.children) := by
  induction xs generalizing s with
  | nil => rfl
  | cons x xs ih => rw [List.foldl_cons, ih, List.flatMap_cons, enterAll_append]

/-- A scope stands for a list of declarations: it finds the first with a name. -/
def Holds (t : Tree) (s : Scope) (ids : List DeclId) : Prop := s.lookup? = t.first? ids

/-- Nothing is bound. -/
structure Blank (s : Scope) : Prop where
  index : s.index = {}
  entries : s.entries = []

theorem Blank.filled (h : s.Blank) : ({ s with filled := true } : Scope).Blank := ⟨h.index, h.entries⟩

theorem Blank.lookup? (h : s.Blank) (n : NameId) : s.lookup? n = none := by
  rw [Scope.lookup?, h.index]
  rfl

theorem Holds.nil (h : s.Blank) : s.Holds t [] := by
  funext n
  rw [h.lookup?]
  rfl

theorem Holds.enter {ids : List DeclId} (h : s.Holds t ids) (id : DeclId) :
    (s.enter (t.nameIdOf id) id).Holds t (ids ++ [id]) := by
  funext n
  rw [lookup?_enter, congrFun h, Tree.first?_append]
  congr 1
  by_cases hn : t.nameIdOf id = n
  · simp [Tree.first?, hn]
  · rw [if_neg hn, Tree.first?, List.find?_cons_of_neg (by simpa using hn)]
    rfl

theorem Holds.enterAll {ids : List DeclId} (h : s.Holds t ids) (xs : List DeclId) :
    (s.enterAll t xs).Holds t (ids ++ xs) := by
  induction xs generalizing s ids with
  | nil =>
    rw [List.append_nil]
    exact h
  | cons x xs ih =>
    have hx := ih (h.enter x)
    rw [List.append_assoc] at hx
    exact hx

/-- What a scope finds is there. -/
def Found (t : Tree) (s : Scope) : Prop := ∀ n e, s.lookup? n = some e → (t.decl? e).isSome

theorem Holds.found {ids : List DeclId} (h : s.Holds t ids)
    (hids : ∀ id ∈ ids, (t.decl? id).isSome) : s.Found t := by
  intro n e he
  rw [congrFun h] at he
  exact hids e (Tree.first?_eq_some he).1

theorem Found.enter (h : s.Found t) {id : DeclId} (hid : (t.decl? id).isSome) (name : NameId) :
    (s.enter name id).Found t := by
  intro n e he
  rw [lookup?_enter, Option.or_eq_some_iff] at he
  rcases he with he | ⟨_, he⟩
  · exact h n e he
  · split at he
    · cases he
      exact hid
    · cases he

theorem Found.enterAll (h : s.Found t) {ids : List DeclId}
    (hids : ∀ id ∈ ids, (t.decl? id).isSome) : (s.enterAll t ids).Found t := by
  induction ids generalizing s with
  | nil => exact h
  | cons x xs ih =>
    exact ih (h.enter (hids x (List.mem_cons_self ..)) _)
      fun i hi => hids i (List.mem_cons_of_mem _ hi)

/-- Declarations whose names are bound may be left out. -/
theorem enterAll_filter (t : Tree) (s : Scope) (ids : List DeclId) {u : Scope}
    (hu : ∀ n, (s.lookup? n).isSome → (u.lookup? n).isSome) :
    u.enterAll t (ids.filter fun id => (s.lookup? (t.nameIdOf id)).isNone) = u.enterAll t ids := by
  induction ids generalizing u with
  | nil => rfl
  | cons id ids ih =>
    cases h : s.lookup? (t.nameIdOf id) with
    | none =>
      rw [List.filter_cons_of_pos (by simp [h])]
      refine ih (u := u.enter (t.nameIdOf id) id) fun n hn => ?_
      rw [lookup?_enter]
      simp [hu n hn]
    | some e =>
      rw [List.filter_cons_of_neg (by simp [h])]
      obtain ⟨e', he'⟩ := Option.isSome_iff_exists.mp (hu (t.nameIdOf id) (by simp [h]))
      rw [ih hu]
      change _ = (u.enter (t.nameIdOf id) id).enterAll t ids
      rw [enter_eq_self he']

/-- The index of a scope and its bindings are the same map, and each name is bound once. -/
structure Indexed (s : Scope) : Prop where
  names : (s.entries.map (·.name)).Nodup
  size : s.index.size = s.entries.length
  lookup : ∀ name id, s.lookup? name = some id ↔ ⟨name, id⟩ ∈ s.entries

theorem Blank.indexed (h : s.Blank) : s.Indexed := by
  refine ⟨?_, ?_, fun name id => ?_⟩
  · simp [h.entries]
  · rw [h.entries, h.index]
    rfl
  · simp [h.lookup?, h.entries]

theorem Indexed.isSome_iff (h : s.Indexed) {name : NameId} :
    (s.lookup? name).isSome ↔ name ∈ s.entries.map (·.name) := by
  rw [Option.isSome_iff_exists, List.mem_map]
  constructor
  · rintro ⟨id, hid⟩
    exact ⟨⟨name, id⟩, (h.lookup name id).mp hid, rfl⟩
  · rintro ⟨⟨n, id⟩, hmem, rfl⟩
    exact ⟨id, (h.lookup n id).mpr hmem⟩

theorem Indexed.enter (h : s.Indexed) (name : NameId) (id : DeclId) : (s.enter name id).Indexed := by
  by_cases hb : (s.lookup? name).isSome
  · rw [Scope.enter, if_pos hb]
    exact h
  · have hfree : s.lookup? name = none := Option.not_isSome_iff_eq_none.mp hb
    have hnew : name ∉ s.entries.map (·.name) := mt h.isSome_iff.mpr hb
    refine ⟨?_, ?_, fun n e => ?_⟩
    · rw [Scope.enter, if_neg hb]
      simpa [List.nodup_append] using
        ⟨h.names, fun b hmem he => hnew (he ▸ List.mem_map_of_mem hmem)⟩
    · rw [Scope.enter, if_neg hb, NumberMap.size_insert hfree, h.size, List.length_append]
      rfl
    · rw [lookup?_enter, Scope.enter, if_neg hb, List.mem_append, ← h.lookup n e]
      by_cases hn : name = n
      · simp [← hn, hfree, eq_comm]
      · simp [hn, Ne.symm hn]

theorem Indexed.enterAll (h : s.Indexed) (t : Tree) (ids : List DeclId) : (s.enterAll t ids).Indexed := by
  induction ids generalizing s with
  | nil => exact h
  | cons id ids ih => exact ih (h.enter (t.nameIdOf id) id)

end Scope

namespace ScopeTable

variable {t : ScopeTable}

/-- The map of owners leads to the scope of each owner and nowhere else. -/
def Backlinked (t : ScopeTable) : Prop :=
  ∀ (decl : DeclId) (i : ScopeId), t.owners.get? decl = some i ↔ (t.scope? i).map (·.owner) = some decl

theorem Backlinked.congr {u : ScopeTable} (h : t.Backlinked) (howners : u.owners = t.owners)
    (hscopes : ∀ i, (u.scope? i).map (·.owner) = (t.scope? i).map (·.owner)) : u.Backlinked := by
  intro decl i
  rw [howners, hscopes]
  exact h decl i

theorem Backlinked.idOf_owner (h : t.Backlinked) {i : ScopeId} {s : Scope} (hs : t.scope? i = some s) :
    t.idOf s.owner = i := by
  have hget : t.owners.get? s.owner = some i := (h s.owner i).mpr (by simp [hs])
  simp [idOf, hget]

theorem Backlinked.scope?_idOf (h : t.Backlinked) {decl : DeclId} (hid : t.idOf decl ≠ 0) :
    ∃ s, t.scope? (t.idOf decl) = some s ∧ s.owner = decl := by
  unfold idOf at hid ⊢
  cases hget : t.owners.get? decl with
  | none => simp [hget] at hid
  | some i => exact Option.map_eq_some_iff.mp ((h decl i).mp hget)

theorem Backlinked.owner_eq (h : t.Backlinked) {decl : DeclId} {s : Scope} (hs : t.scopeOf? decl = some s) :
    s.owner = decl := by
  obtain ⟨r, hr, howner⟩ := h.scope?_idOf (Nat.ne_of_gt (numbered?_eq_some hs).1)
  cases hr.symm.trans hs
  exact howner

theorem owners_modifyScope (t : ScopeTable) (decl : DeclId) (g : Scope → Scope) :
    (t.modifyScope decl g).owners = t.owners := by
  unfold modifyScope
  split <;> rfl

@[simp] theorem idOf_modifyScope (t : ScopeTable) (decl : DeclId) (g : Scope → Scope) (j : DeclId) :
    (t.modifyScope decl g).idOf j = t.idOf j := by
  rw [idOf, owners_modifyScope, ← idOf]

theorem scope?_modifyScope (t : ScopeTable) (decl : DeclId) (g : Scope → Scope) (i : ScopeId) :
    (t.modifyScope decl g).scope? i =
      if i = t.idOf decl then (t.scope? i).map g else t.scope? i := by
  unfold modifyScope scope?
  split
  · next h0 =>
    rw [h0]
    split
    · next hi =>
      subst hi
      rfl
    · rfl
  · next k hk =>
    rw [hk]
    exact numbered?_modify t.scopes g (Nat.succ_pos k) i

theorem Backlinked.modifyScope (h : t.Backlinked) (decl : DeclId) {g : Scope → Scope}
    (hg : ∀ s, (g s).owner = s.owner) : (t.modifyScope decl g).Backlinked := by
  refine h.congr (t.owners_modifyScope decl g) fun i => ?_
  rw [scope?_modifyScope]
  split
  · cases t.scope? i with
    | none => rfl
    | some s => exact congrArg some (hg s)
  · rfl

/-- Only the scope of the declaration changes. -/
theorem Backlinked.scopeOf?_modifyScope (h : t.Backlinked) (decl : DeclId) (g : Scope → Scope) :
    (t.modifyScope decl g).scopeOf? =
      Function.update t.scopeOf? decl ((t.scopeOf? decl).map g) := by
  funext j
  unfold scopeOf?
  rw [idOf_modifyScope, scope?_modifyScope]
  by_cases hj : j = decl
  · subst hj
    simp
  · rw [Function.update_of_ne hj]
    split
    · next hsame =>
      -- Two declarations cannot own one scope.
      cases hs : t.scope? (t.idOf j) with
      | none => rfl
      | some s =>
        have howner : s.owner = j := h.owner_eq hs
        have howner' : s.owner = decl := h.owner_eq (by rw [scopeOf?, ← hsame, hs])
        exact (hj (howner.symm.trans howner')).elim
    · rfl

theorem Backlinked.modifyScope_eq_update (h : t.Backlinked) {owner : DeclId} {s : Scope}
    (hs : t.scopeOf? owner = some s) (g : Scope → Scope) :
    (t.modifyScope owner g).scopeOf? = Function.update t.scopeOf? owner (some (g s)) := by
  rw [h.scopeOf?_modifyScope owner g, hs]
  rfl

/-! ## Fresh tables -/

variable {tree : Tree}

/-- A table has the scopes of the first declarations, in order and without parents. -/
structure Covers (tree : Tree) (t : ScopeTable) (n : Nat) : Prop where
  mem : ∀ s, s ∈ t.scopes ↔ s.owner ≤ n ∧ ∃ d, tree.decl? s.owner = some d ∧ d.kind ≠ .variable ∧
    s = { kind := .ofDecl d.kind, owner := s.owner, span := d.span }
  ordered : t.scopes.toList.Pairwise fun s r => s.owner < r.owner
  linked : t.Backlinked

theorem Covers.empty (tree : Tree) : ({} : ScopeTable).Covers tree 0 := by
  refine ⟨fun s => ?_, .nil, fun decl i => ?_⟩
  · refine ⟨nofun, ?_⟩
    rintro ⟨hle, d, hd, _⟩
    exact absurd (numbered?_eq_some hd).1 (Nat.not_lt.mpr hle)
  · cases i <;> exact ⟨nofun, nofun⟩

theorem Covers.addFor {n : Nat} (h : t.Covers tree n) {d : Decl} (hd : tree.decl? (n + 1) = some d) :
    (t.addFor (n + 1) d).Covers tree (n + 1) := by
  have hle : ∀ s ∈ t.scopes, s.owner ≤ n := fun s hs => ((h.mem s).mp hs).1
  unfold ScopeTable.addFor
  split
  · next hk =>
    refine ⟨fun s => ?_, h.ordered, h.linked⟩
    rw [h.mem s, Nat.le_add_one_iff, or_and_right]
    refine (or_iff_left ?_).symm
    rintro ⟨howner, e, he, hvar, _⟩
    cases (howner ▸ he).symm.trans hd
    exact hvar hk
  · next hk =>
    refine ⟨fun s => ?_, ?_, fun decl i => ?_⟩
    · rw [Array.mem_push, h.mem s, Nat.le_add_one_iff, or_and_right]
      refine or_congr_right ⟨?_, ?_⟩
      · rintro rfl
        exact ⟨rfl, d, hd, hk, rfl⟩
      · rintro ⟨howner, e, he, _, hs⟩
        cases (howner ▸ he).symm.trans hd
        rw [hs, howner]
    · rw [Array.toList_push, List.pairwise_append]
      refine ⟨h.ordered, List.pairwise_singleton .., fun s hs r hr => ?_⟩
      rw [List.mem_singleton.mp hr]
      exact Nat.lt_succ_of_le (hle s (Array.mem_toList_iff.mp hs))
    · rw [NumberMap.get?_insert, scope?, numbered?_push]
      by_cases hi : i = t.scopes.size + 1
      · -- The new scope: no pair had its number.
        subst hi
        have hnone : t.owners.get? decl ≠ some (t.scopes.size + 1) := by
          rw [Ne, h.linked decl]
          intro hsome
          obtain ⟨s, hs, _⟩ := Option.map_eq_some_iff.mp hsome
          exact absurd (numbered?_eq_some hs).2.1 (Nat.not_succ_le_self _)
        by_cases hdecl : decl = n + 1
        · simp [hdecl]
        · simp [hdecl, hnone, Ne.symm hdecl]
      · -- The others: none of them has the new owner.
        rw [if_neg hi, ← scope?, ← h.linked decl]
        by_cases hdecl : decl = n + 1
        · subst hdecl
          rw [if_pos rfl]
          refine ⟨fun hsame => absurd (Option.some.inj hsame).symm hi, fun hget => ?_⟩
          obtain ⟨s, hs, howner⟩ := Option.map_eq_some_iff.mp ((h.linked _ i).mp hget)
          have hmem : s ∈ t.scopes := Array.mem_of_getElem? (numbered?_eq_some hs).2.2
          have hbound := hle s hmem
          rw [howner] at hbound
          exact absurd hbound (Nat.not_succ_le_self n)
        · rw [if_neg hdecl]

theorem Covers.addAll {before after : List Decl} (h : t.Covers tree before.length)
    (htree : tree.decls.toList = before ++ after) :
    ((after.zipIdx before.length).foldl (fun t entry => t.addFor (entry.2 + 1) entry.1) t).Covers tree
      tree.decls.size := by
  induction after generalizing before t with
  | nil =>
    have hsize : tree.decls.size = before.length := by simpa using congrArg List.length htree
    rw [hsize]
    exact h
  | cons d after ih =>
    have hd : tree.decl? (before.length + 1) = some d := by
      rw [Tree.decl?, numbered?, ← Array.getElem?_toList, htree]
      simp
    have hstep := h.addFor hd
    rw [List.zipIdx_cons, List.foldl_cons]
    have hmore : tree.decls.toList = (before ++ [d]) ++ after := by simp [htree]
    have hlength : before.length + 1 = (before ++ [d]).length := by simp
    rw [hlength] at hstep ⊢
    exact ih hstep hmore

theorem unlinked_covers (tree : Tree) : (unlinked tree).Covers tree tree.decls.size := by
  have hall : tree.decls.toList = [] ++ tree.decls.toList := rfl
  exact (Covers.empty tree).addAll hall

theorem mem_unlinked {s : Scope} : s ∈ (unlinked tree).scopes ↔
    ∃ d, tree.decl? s.owner = some d ∧ d.kind ≠ .variable ∧
      s = { kind := .ofDecl d.kind, owner := s.owner, span := d.span } := by
  rw [(unlinked_covers tree).mem s, and_iff_right_of_imp]
  rintro ⟨d, hd, _⟩
  exact (numbered?_eq_some hd).2.1

/-- Scopes are numbered in the order of their owners. -/
theorem unlinked_ordered {i j : Nat} {s r : Scope} (hs : (unlinked tree).scope? i = some s)
    (hr : (unlinked tree).scope? j = some r) (hij : i < j) : s.owner < r.owner := by
  obtain ⟨hipos, hi, hs⟩ := numbered?_eq_some hs
  obtain ⟨_, hj, hr⟩ := numbered?_eq_some hr
  rw [Array.getElem?_eq_some_iff] at hs hr
  obtain ⟨hi', rfl⟩ := hs
  obtain ⟨hj', rfl⟩ := hr
  exact List.pairwise_iff_getElem.mp (unlinked_covers tree).ordered (i - 1) (j - 1) hi' hj' (by omega)

/-- A scope with the link that its owner asks for. -/
def linked (tree : Tree) (t : ScopeTable) (s : Scope) : Scope :=
  match tree.decl? s.owner with
  | some d => if d.parent = 0 then s else { s with parent := t.idOf d.parent }
  | none => s

theorem linked_owner (tree : Tree) (t : ScopeTable) (s : Scope) : (t.linked tree s).owner = s.owner := by
  unfold linked
  split
  · split <;> rfl
  · rfl

theorem linked_linked (tree : Tree) (t : ScopeTable) (s : Scope) :
    t.linked tree (t.linked tree s) = t.linked tree s := by
  conv_lhs => rw [linked, linked_owner]
  unfold linked
  cases hd : tree.decl? s.owner with
  | none => rfl
  | some d => by_cases hp : d.parent = 0 <;> simp [hp]

theorem owners_link (tree : Tree) (t : ScopeTable) (owner : DeclId) (id : ScopeId) :
    (t.link tree owner id).owners = t.owners := by
  unfold link
  split
  · split <;> rfl
  · rfl

theorem linked_congr {u : ScopeTable} (h : u.owners = t.owners) : u.linked tree = t.linked tree := by
  funext s
  unfold linked idOf
  rw [h]

theorem scope?_link {owner : DeclId} {id : ScopeId} (h : (t.scope? id).map (·.owner) = some owner)
    (i : ScopeId) :
    (t.link tree owner id).scope? i = (t.scope? i).map fun s => if i = id then t.linked tree s else s := by
  obtain ⟨r, hr, rfl⟩ := Option.map_eq_some_iff.mp h
  have hsame : i ≠ id → t.scope? i = (t.scope? i).map fun s => if i = id then t.linked tree s else s := by
    intro hi
    simp [hi]
  unfold link
  by_cases hi : i = id
  · subst hi
    cases hd : tree.decl? r.owner with
    | none => simp [hr, linked, hd]
    | some d =>
      by_cases hp : d.parent = 0
      · simp [hr, linked, hd, hp]
      · simp only [hp, ↓reduceIte]
        rw [scope?, numbered?_modify t.scopes _ (numbered?_eq_some hr).1, if_pos rfl, ← scope?, hr]
        simp [linked, hd, hp]
  · rw [← hsame hi]
    split
    · split
      · rfl
      · rw [scope?, numbered?_modify t.scopes _ (numbered?_eq_some hr).1, if_neg hi, scope?]
    · rfl

theorem scope?_linkAll {entries : List (DeclId × ScopeId)}
    (h : ∀ entry ∈ entries, (t.scope? entry.2).map (·.owner) = some entry.1) (i : ScopeId) :
    (entries.foldl (fun t entry => t.link tree entry.1 entry.2) t).scope? i =
      (t.scope? i).map fun s => if i ∈ entries.map (·.2) then t.linked tree s else s := by
  induction entries generalizing t with
  | nil => simp
  | cons entry entries ih =>
    have hstep : ∀ j, (t.link tree entry.1 entry.2).scope? j =
        (t.scope? j).map fun s => if j = entry.2 then t.linked tree s else s :=
      scope?_link (h entry (List.mem_cons_self ..))
    have howners := t.owners_link tree entry.1 entry.2
    rw [List.foldl_cons, ih fun e he => ?_, hstep, Option.map_map, linked_congr howners]
    · congr 1
      funext s
      rw [List.map_cons]
      by_cases hi : i = entry.2
      · by_cases hmem : i ∈ entries.map (·.2) <;> simp_all [linked_linked]
      · simp only [Function.comp, hi, ↓reduceIte, List.mem_cons, false_or]
    · rw [hstep, Option.map_map, ← h e (List.mem_cons_of_mem _ he)]
      congr 1
      funext s
      dsimp only [Function.comp]
      split
      · exact t.linked_owner tree s
      · rfl

theorem owners_linkAll (tree : Tree) (t : ScopeTable) (entries : List (DeclId × ScopeId)) :
    (entries.foldl (fun t entry => t.link tree entry.1 entry.2) t).owners = t.owners := by
  induction entries generalizing t with
  | nil => rfl
  | cons entry entries ih => rw [List.foldl_cons, ih, owners_link]

theorem owners_ofTree (tree : Tree) : (ofTree tree).owners = (unlinked tree).owners :=
  owners_linkAll tree _ _

/-- All scopes are linked. -/
theorem scope?_ofTree_eq (tree : Tree) (i : ScopeId) :
    (ofTree tree).scope? i = ((unlinked tree).scope? i).map ((unlinked tree).linked tree) := by
  have hlinked := (unlinked_covers tree).linked
  have hentries : ∀ entry ∈ (unlinked tree).owners.pairs,
      ((unlinked tree).scope? entry.2).map (·.owner) = some entry.1 :=
    fun entry hentry => (hlinked _ _).mp (NumberMap.get?_eq_some.mpr hentry)
  refine (scope?_linkAll hentries i).trans ?_
  cases hs : (unlinked tree).scope? i with
  | none => rfl
  | some s =>
    have hpair : (s.owner, i) ∈ (unlinked tree).owners.pairs :=
      NumberMap.get?_eq_some.mp ((hlinked _ _).mpr (by rw [hs]; rfl))
    have hmem : i ∈ (unlinked tree).owners.pairs.map (·.2) := List.mem_map.mpr ⟨_, hpair, rfl⟩
    simp [hmem]

theorem ofTree_backlinked (tree : Tree) : (ofTree tree).Backlinked := by
  refine (unlinked_covers tree).linked.congr (owners_ofTree tree) fun i => ?_
  rw [scope?_ofTree_eq, Option.map_map]
  congr 1
  funext s
  exact linked_owner tree _ s

/-- A fresh scope is linked to that of the parent of its owner. -/
theorem scope?_ofTree {i : ScopeId} {s : Scope} (h : (ofTree tree).scope? i = some s) :
    ∃ d, tree.decl? s.owner = some d ∧ d.kind ≠ .variable ∧
      (unlinked tree).scope? i = some { s with parent := 0 } ∧
      s = { kind := .ofDecl d.kind, owner := s.owner, span := d.span,
            parent := if d.parent = 0 then 0 else (unlinked tree).idOf d.parent } := by
  rw [scope?_ofTree_eq, Option.map_eq_some_iff] at h
  obtain ⟨r, hr, rfl⟩ := h
  obtain ⟨d, hd, hk, hshape⟩ := mem_unlinked.mp (Array.mem_of_getElem? (numbered?_eq_some hr).2.2)
  rw [linked_owner]
  refine ⟨d, hd, hk, ?_, ?_⟩
  · rw [hr, linked, hd, hshape]
    dsimp only
    split <;> rfl
  · rw [linked, hd]
    dsimp only
    split <;> rw [hshape]

/-- At first the scopes of a tree are empty, and variables have none. -/
theorem scopeOf?_ofTree {id : DeclId} {d : Decl} (hd : tree.decl? id = some d) :
    if d.kind = .variable then (ofTree tree).scopeOf? id = none
    else ∃ s, (ofTree tree).scopeOf? id = some s ∧ s.Blank ∧ s.filled = false := by
  have hblank : ∀ s, (ofTree tree).scopeOf? id = some s →
      d.kind ≠ .variable ∧ s.Blank ∧ s.filled = false := by
    intro s hs
    have howner := (ofTree_backlinked tree).owner_eq hs
    obtain ⟨e, he, hk, _, hshape⟩ := scope?_ofTree hs
    cases (howner ▸ he).symm.trans hd
    rw [hshape]
    exact ⟨hk, ⟨rfl, rfl⟩, rfl⟩
  split
  · next hk =>
    cases hs : (ofTree tree).scopeOf? id with
    | none => rfl
    | some s => exact ((hblank s hs).1 hk).elim
  · next hk =>
    let r : Scope := { kind := .ofDecl d.kind, owner := id, span := d.span }
    have hr : r ∈ (unlinked tree).scopes := mem_unlinked.mpr ⟨d, hd, hk, rfl⟩
    obtain ⟨i, hi, hget⟩ := Array.mem_iff_getElem.mp hr
    have hscope : (unlinked tree).scope? (i + 1) = some r := Array.getElem?_eq_some_iff.mpr ⟨hi, hget⟩
    have hfound : (ofTree tree).scopeOf? id = some ((unlinked tree).linked tree r) := by
      rw [scopeOf?, idOf, owners_ofTree, ← idOf, show id = r.owner from rfl,
        (unlinked_covers tree).linked.idOf_owner hscope, scope?_ofTree_eq, hscope]
      rfl
    exact ⟨_, hfound, (hblank _ hfound).2⟩

end ScopeTable

end DeclCheck
