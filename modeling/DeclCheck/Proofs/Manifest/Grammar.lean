import DeclCheck.Manifest.Entry
import Mathlib.Data.List.Forall2
import Mathlib.Data.List.Nodup

/-!
# The grammar of entries

An entry is a mapping whose keys differ, with a list of formals and a list of members under two of them; the
members are entries again. What is read of an entry are the values of its keys. A formal is read by its last
values: that a key of it repeats is not noticed, and this is the only way in which reading accepts more than
the grammar of entries with distinct keys throughout.
-/
namespace DeclCheck

namespace Yaml.Node

theorem resolved_resolved : (n : Node) → n.resolved.resolved = n.resolved
  | .scalar .. | .sequence .. | .mapping .. => rfl
  | .reference _ _ target => resolved_resolved target

theorem sizeOf_resolved_le : (n : Node) → sizeOf n.resolved ≤ sizeOf n
  | .scalar .. | .sequence .. | .mapping .. => Nat.le_refl _
  | .reference _ _ target => by
    have h := sizeOf_resolved_le target
    simp only [resolved, reference.sizeOf_spec]
    omega

/-- The keys of a mapping as texts; other nodes have none. -/
def keyTexts : Node → List Text
  | .mapping _ _ pairs => pairs.map (·.1.value)
  | _ => []

end Yaml.Node

namespace Manifest

open Yaml

/-- The value of the first key with a text, its aliases followed. -/
def valueAt? (pairs : List (Node × Node)) (key : Text) : Option Node :=
  (pairs.find? (·.1.value == key)).map (·.2.resolved)

theorem valueAt?_cons_self {k v : Node} {pairs : List (Node × Node)} :
    valueAt? ((k, v) :: pairs) k.value = some v.resolved := by
  simp [valueAt?]

theorem valueAt?_cons_of_ne {k v : Node} {pairs : List (Node × Node)} {key : Text}
    (h : k.value ≠ key) : valueAt? ((k, v) :: pairs) key = valueAt? pairs key := by
  simp [valueAt?, h]

theorem valueAt?_singleton (k v : Node) (key : Text) :
    valueAt? [(k, v)] key = if k.value = key then some v.resolved else none := by
  by_cases hk : k.value = key <;> simp [valueAt?, hk]

theorem valueAt?_append (xs ys : List (Node × Node)) (key : Text) :
    valueAt? (xs ++ ys) key = (valueAt? xs key).or (valueAt? ys key) := by
  simp only [valueAt?, List.find?_append, Option.map_or]

theorem valueAt?_eq_none {pairs : List (Node × Node)} {key : Text}
    (h : key ∉ pairs.map (·.1.value)) : valueAt? pairs key = none := by
  simp only [valueAt?, Option.map_eq_none_iff, List.find?_eq_none, beq_iff_eq]
  intro kv hkv heq
  exact h (heq ▸ List.mem_map_of_mem hkv)

/-! ## The grammar -/

/-- A null, or a list of nodes that are all of one sort. -/
def IsListOf (item : Node → Prop) (v : Node) : Prop :=
  v.resolved.isNull = true ∨
    ∃ p t items, v.resolved = .sequence p t items ∧ ∀ i ∈ items, item i

theorem IsListOf.congr {item other : Node → Prop} {v : Node}
    (h : ∀ p t items, v.resolved = .sequence p t items → ∀ i ∈ items, (item i ↔ other i)) :
    IsListOf item v ↔ IsListOf other v := by
  refine or_congr Iff.rfl (exists_congr fun p => exists_congr fun t => exists_congr fun items => ?_)
  exact and_congr_right fun hs => forall₂_congr (h p t items hs)

/-- A mapping whose keys, as texts, are as asked for. -/
def IsFormal (rule : List Text → Prop) (n : Node) : Prop :=
  ∃ p t pairs, n.resolved = .mapping p t pairs ∧ rule (n.resolved.keyTexts)

/-- An entry whose formals have keys as asked for: a mapping with distinct keys, whose formals are a list
of formals and whose members are a list of entries. -/
inductive IsEntry (rule : List Text → Prop) : Node → Prop
  | mapping {n : Node} {p : Yaml.Place} {t : Text} {pairs : List (Node × Node)}
      (shape : n.resolved = .mapping p t pairs) (distinct : n.resolved.keyTexts.Nodup)
      (formals : ∀ v, valueAt? pairs "formals" = some v → IsListOf (IsFormal rule) v)
      (list : ∀ v, valueAt? pairs "members" = some v → IsListOf (fun _ => True) v)
      (members : ∀ v p t items, valueAt? pairs "members" = some v →
        v.resolved = .sequence p t items → ∀ i ∈ items, IsEntry rule i) : IsEntry rule n

/-- The keys that a formal may have. -/
def FormalKeys (keys : List Text) : Prop :=
  ∀ k ∈ keys, k = Text.ofString "name" ∨ k = Text.ofString "type"

theorem isEntry_iff {rule : List Text → Prop} {n : Node} : IsEntry rule n ↔
    ∃ p t pairs, n.resolved = .mapping p t pairs ∧ n.resolved.keyTexts.Nodup ∧
      (∀ v, valueAt? pairs "formals" = some v → IsListOf (IsFormal rule) v) ∧
      ∀ v, valueAt? pairs "members" = some v → IsListOf (IsEntry rule) v := by
  constructor
  · rintro ⟨shape, distinct, formals, list, members⟩
    refine ⟨_, _, _, shape, distinct, formals, fun v hv => ?_⟩
    exact (list v hv).imp_right fun ⟨p, t, items, hs, _⟩ => ⟨p, t, items, hs, members v p t items hv hs⟩
  · rintro ⟨p, t, pairs, shape, distinct, formals, members⟩
    refine .mapping shape distinct formals (fun v hv => ?_) fun v p t items hv hs i hi => ?_
    · exact (members v hv).imp_right fun ⟨p, t, items, hs, _⟩ => ⟨p, t, items, hs, fun _ _ => trivial⟩
    · rcases members v hv with hnull | ⟨q, u, others, hs', hall⟩
      · rw [hs] at hnull
        cases hnull
      · rw [hs] at hs'
        cases hs'
        exact hall i hi

/-! ## Lists -/

section Lists

variable {α : Type}

theorem mapM_eq_ok {read : Node → Except EntryError α} {items : List Node} {xs : List α} :
    items.mapM read = .ok xs ↔ List.Forall₂ (fun i x => read i = .ok x) items xs := by
  induction items generalizing xs with
  | nil =>
    rw [List.mapM_nil, List.forall₂_nil_left_iff]
    exact ⟨fun h => by cases h; rfl, fun h => by rw [h]; rfl⟩
  | cons i items ih =>
    rw [List.mapM_cons, List.forall₂_cons_left_iff]
    cases hi : read i with
    | error e => exact ⟨nofun, fun ⟨_, _, h, _⟩ => nomatch h⟩
    | ok x =>
      cases hr : items.mapM read with
      | error e =>
        refine ⟨nofun, fun ⟨_, ys, _, hys, _⟩ => ?_⟩
        rw [ih.mpr hys] at hr
        cases hr
      | ok ys =>
        have hys := ih.mp hr
        constructor
        · intro h
          cases h
          exact ⟨x, ys, rfl, hys, rfl⟩
        · rintro ⟨x', ys', hx, hys', rfl⟩
          cases hx
          rw [ih.mpr hys'] at hr
          cases hr
          rfl

/-- What is read of a list: nothing of a null, and otherwise what is read of each node. -/
def ReadList (reads : Node → α → Prop) (v : Node) (xs : List α) : Prop :=
  (v.resolved.isNull = true ∧ xs = []) ∨
    ∃ p t items, v.resolved = .sequence p t items ∧ List.Forall₂ reads items xs

theorem ReadList.imp {reads more : Node → α → Prop} {v : Node} {xs : List α} (h : ReadList reads v xs)
    (hr : ∀ i x, reads i x → more i x) : ReadList more v xs :=
  Or.imp_right (fun ⟨p, t, items, hs, hread⟩ => ⟨p, t, items, hs, hread.imp hr⟩) h

theorem listItems_eq_ok {key : Text} {v : Node} {items : List Node} :
    listItems key v = .ok items ↔
      (v.resolved.isNull = true ∧ items = []) ∨ ∃ p t, v.resolved = .sequence p t items := by
  unfold listItems
  cases v.resolved with
  | sequence p t others => simp [Node.isNull, eq_comm]
  | scalar p t style value =>
    by_cases hnull : (Node.scalar p t style value).isNull = true <;> simp [hnull, eq_comm]
  | mapping p t pairs => simp [Node.isNull]
  | reference p name target => simp [Node.isNull]

theorem listItems_resolved (key : Text) (v : Node) : listItems key v.resolved = listItems key v := by
  unfold listItems
  rw [Node.resolved_resolved]

/-- A list is read if it is a null or a list of nodes that are read. -/
theorem readList_eq_ok {key : Text} {read : Node → Except EntryError α} {v : Node} {xs : List α} :
    (do (← listItems key v).mapM read) = .ok xs ↔ ReadList (fun i x => read i = .ok x) v xs := by
  unfold ReadList
  cases hl : listItems key v with
  | error e =>
    refine ⟨nofun, fun h => ?_⟩
    have hok : ∃ items, listItems key v = .ok items := by
      rcases h with ⟨hnull, _⟩ | ⟨p, t, items, hs, _⟩
      · exact ⟨[], listItems_eq_ok.mpr (.inl ⟨hnull, rfl⟩)⟩
      · exact ⟨items, listItems_eq_ok.mpr (.inr ⟨p, t, hs⟩)⟩
    obtain ⟨items, hok⟩ := hok
    rw [hok] at hl
    cases hl
  | ok items =>
    change items.mapM read = .ok xs ↔ _
    rw [mapM_eq_ok]
    rcases listItems_eq_ok.mp hl with ⟨hnull, rfl⟩ | ⟨p, t, hs⟩
    · rw [List.forall₂_nil_left_iff]
      refine ⟨fun h => .inl ⟨hnull, h⟩, fun h => ?_⟩
      rcases h with ⟨_, h⟩ | ⟨p, t, items, hs, _⟩
      · exact h
      · rw [hs] at hnull
        cases hnull
    · rw [hs]
      simp [Node.isNull]

/-- What is read of a list has a property if each of its nodes can be read with that property. -/
theorem exists_readList_iff {key : Text} {read : Node → Except EntryError α} {v : Node}
    {keep : α → Prop} :
    (∃ xs, (do (← listItems key v).mapM read) = .ok xs ∧ ∀ x ∈ xs, keep x) ↔
      IsListOf (fun i => ∃ x, read i = .ok x ∧ keep x) v := by
  have hall : ∀ items : List Node, (∃ xs, List.Forall₂ (fun i x => read i = .ok x) items xs ∧
      ∀ x ∈ xs, keep x) ↔ ∀ i ∈ items, ∃ x, read i = .ok x ∧ keep x := by
    intro items
    induction items with
    | nil => simp
    | cons i items ih =>
      rw [List.forall_mem_cons, ← ih]
      constructor
      · rintro ⟨_, _ | ⟨hx, hxs⟩, hkeep⟩
        rw [List.forall_mem_cons] at hkeep
        exact ⟨⟨_, hx, hkeep.1⟩, _, hxs, hkeep.2⟩
      · rintro ⟨⟨x, hx, hk⟩, xs, hxs, hks⟩
        exact ⟨x :: xs, .cons hx hxs, List.forall_mem_cons.mpr ⟨hk, hks⟩⟩
  simp only [readList_eq_ok, ReadList, IsListOf]
  constructor
  · rintro ⟨xs, ⟨hnull, _⟩ | ⟨p, t, items, hs, hread⟩, hkeep⟩
    · exact .inl hnull
    · exact .inr ⟨p, t, items, hs, (hall items).mp ⟨xs, hread, hkeep⟩⟩
  · rintro (hnull | ⟨p, t, items, hs, hread⟩)
    · exact ⟨[], .inl ⟨hnull, rfl⟩, by simp⟩
    · obtain ⟨xs, hxs, hkeep⟩ := (hall items).mpr hread
      exact ⟨xs, .inr ⟨p, t, items, hs, hxs⟩, hkeep⟩

end Lists

/-! ## Formals -/

/-- The last values of the two keys are kept. -/
theorem FormalEntry.ofPairs_eq_ok {f r : FormalEntry} {pairs : List (Node × Node)} :
    FormalEntry.ofPairs f pairs = .ok r ↔ FormalKeys (pairs.map (·.1.value)) ∧
      r = { f with
        name := (valueAt? pairs.reverse "name").or f.name
        type := (valueAt? pairs.reverse "type").or f.type } := by
  induction pairs generalizing f with
  | nil => simp [FormalEntry.ofPairs, FormalKeys, valueAt?, eq_comm]
  | cons kv pairs ih =>
    obtain ⟨k, v⟩ := kv
    have hdiffer : Text.ofString "name" ≠ Text.ofString "type" := by decide
    simp only [FormalEntry.ofPairs, beq_iff_eq, List.reverse_cons, valueAt?_append]
    by_cases hname : k.value = Text.ofString "name"
    · simp [hname, ih, FormalKeys, valueAt?, hdiffer]
    · by_cases htype : k.value = Text.ofString "type"
      · simp [htype, ih, FormalKeys, valueAt?, hdiffer.symm]
      · simp [hname, htype, FormalKeys]

theorem FormalEntry.ofNode_eq_ok {n : Node} {f : FormalEntry} : FormalEntry.ofNode n = .ok f ↔
    ∃ p t pairs, n.resolved = .mapping p t pairs ∧ FormalKeys n.resolved.keyTexts ∧
      f = { node := n.resolved
            name := valueAt? pairs.reverse "name"
            type := valueAt? pairs.reverse "type" } := by
  unfold FormalEntry.ofNode
  cases n.resolved with
  | mapping p t pairs => simp [FormalEntry.ofPairs_eq_ok, Node.keyTexts]
  | scalar p t style value => simp
  | sequence p t items => simp
  | reference p name target => simp

/-! ## Entries -/

/-- The keys of an entry whose values are kept as they are. -/
def fieldKeys : List Text :=
  ["var", "fn", "class", "interface", "type", "returns", "body", "extends", "implements"]

namespace Entry

/-- The values of these keys in an entry, in the same order. -/
def values (e : Entry) : List (Option Node) :=
  [e.var, e.fn, e.cls, e.iface, e.type, e.returns, e.body, e.base, e.implements]

/-- What an entry holds under a key whose value is kept as it is. -/
def field? (e : Entry) (key : Text) : Option Node := e.values[fieldKeys.idxOf key]?.join

theorem values_set (e : Entry) (k : Text) (v : Node) :
    (e.set k v).values = e.values.set (fieldKeys.idxOf k) (some v) := by
  unfold Entry.set
  iterate 9
    split
    · next h =>
      rw [eq_of_beq h]
      rfl
  have hnot : k ∉ fieldKeys := by simp_all [fieldKeys]
  rw [List.idxOf_of_notMem hnot]
  rfl

/-- The other parts of an entry stay. -/
theorem set_frame (e : Entry) (k : Text) (v : Node) :
    (e.set k v).node = e.node ∧ (e.set k v).keys = e.keys ∧ (e.set k v).formals = e.formals ∧
      (e.set k v).members = e.members := by
  unfold Entry.set
  split_ifs <;> exact ⟨rfl, rfl, rfl, rfl⟩

theorem field?_set (e : Entry) (k : Text) (v : Node) {key : Text} (hkey : key ∈ fieldKeys) :
    (e.set k v).field? key = if k = key then some v else e.field? key := by
  have hlt : fieldKeys.idxOf key < e.values.length := List.idxOf_lt_length_of_mem hkey
  unfold field?
  rw [values_set, List.getElem?_set]
  by_cases hk : k = key
  · simp [hk, hlt]
  · have hne : fieldKeys.idxOf k ≠ fieldKeys.idxOf key := fun h => hk ((List.idxOf_inj hkey).mp h.symm).symm
    simp [hk, hne]

theorem ofItems_eq_mapM : (items : List Node) → Entry.ofItems items = items.mapM Entry.ofNode
  | [] => rfl
  | n :: rest => by rw [Entry.ofItems, List.mapM_cons, ofItems_eq_mapM rest]

theorem listOf_eq : (v : Node) →
    Entry.listOf v = do (← listItems "members" v).mapM Entry.ofNode
  | .reference _ _ target => by
    rw [Entry.listOf, listOf_eq target]
    rfl
  | .sequence _ _ items => by
    rw [Entry.listOf, ofItems_eq_mapM]
    rfl
  | .scalar p t style value => by
    rw [Entry.listOf]
    by_cases hnull : (t == Tag.null) = true
    · simp only [listItems, Node.resolved, Node.isNull, hnull]
      rfl
    · simp only [listItems, Node.resolved, Node.isNull, hnull]
      rfl
  | .mapping .. => by
    rw [Entry.listOf]
    rfl

theorem ofNode_eq : (n : Node) → Entry.ofNode n = match n.resolved with
    | .mapping p t pairs => Entry.ofPairs { node := .mapping p t pairs } pairs
    | m => .error (.notMapping m.place.line m.tag)
  | .reference _ _ target => by rw [Entry.ofNode, ofNode_eq target, Node.resolved]
  | .mapping .. => by rw [Entry.ofNode]; rfl
  | .scalar .. => by rw [Entry.ofNode]; rfl
  | .sequence .. => by rw [Entry.ofNode]; rfl

/-- What an entry holds after some keys were read on top of what it held before. -/
structure Takes (e : Entry) (pairs : List (Node × Node)) (r : Entry) : Prop where
  node : r.node = e.node
  keys : r.keys = e.keys ++ pairs.map (·.1)
  fields : ∀ key ∈ fieldKeys, r.field? key = (valueAt? pairs key).or (e.field? key)
  formals : match valueAt? pairs "formals" with
    | none => r.formals = e.formals
    | some v => FormalEntry.listOf v = .ok r.formals
  members : match valueAt? pairs "members" with
    | none => r.members = e.members
    | some v => Entry.listOf v = .ok r.members

/-- The entry after one more key. -/
def take (e : Entry) (k v : Node) : Except EntryError Entry :=
  if e.keys.any (·.value == k.value) then .error (.repeatedKey k.place.line k.value)
  else if k.value == Text.ofString "formals" then
    (FormalEntry.listOf v).map fun formals => { e with keys := e.keys ++ [k], formals }
  else if k.value == Text.ofString "members" then
    (Entry.listOf v).map fun members => { e with keys := e.keys ++ [k], members }
  else .ok ({ e with keys := e.keys ++ [k] }.set k.value v.resolved)

theorem ofPairs_cons (e : Entry) (k v : Node) (rest : List (Node × Node)) :
    Entry.ofPairs e ((k, v) :: rest) = (e.take k v).bind (Entry.ofPairs · rest) := by
  rw [Entry.ofPairs, take]
  split
  · rfl
  split
  · cases FormalEntry.listOf v <;> rfl
  split
  · cases Entry.listOf v <;> rfl
  · rfl

theorem Takes.ofFormals (e : Entry) {k v : Node} {formals : List FormalEntry}
    (hk : k.value = Text.ofString "formals") (hv : FormalEntry.listOf v = .ok formals) :
    e.Takes [(k, v)] { e with keys := e.keys ++ [k], formals } := by
  refine ⟨rfl, rfl, fun key hkey => ?_, ?_, ?_⟩
  · rw [valueAt?_singleton, if_neg fun h => absurd (hk ▸ h ▸ hkey) (by decide)]
    rfl
  · rw [valueAt?_singleton, if_pos hk]
    dsimp only
    rw [← hv, FormalEntry.listOf, listItems_resolved, FormalEntry.listOf]
  · rw [valueAt?_singleton, if_neg (by rw [hk]; decide)]

theorem Takes.ofMembers (e : Entry) {k v : Node} {members : List Entry}
    (hk : k.value = Text.ofString "members") (hv : Entry.listOf v = .ok members) :
    e.Takes [(k, v)] { e with keys := e.keys ++ [k], members } := by
  refine ⟨rfl, rfl, fun key hkey => ?_, ?_, ?_⟩
  · rw [valueAt?_singleton, if_neg fun h => absurd (hk ▸ h ▸ hkey) (by decide)]
    rfl
  · rw [valueAt?_singleton, if_neg (by rw [hk]; decide)]
  · rw [valueAt?_singleton, if_pos hk]
    dsimp only
    rw [← hv, listOf_eq, listItems_resolved, listOf_eq]

theorem Takes.ofField (e : Entry) {k : Node} (v : Node) (hf : k.value ≠ Text.ofString "formals")
    (hm : k.value ≠ Text.ofString "members") :
    e.Takes [(k, v)] ({ e with keys := e.keys ++ [k] }.set k.value v.resolved) := by
  obtain ⟨hnode, hkeys, hformals, hmembers⟩ :=
    set_frame { e with keys := e.keys ++ [k] } k.value v.resolved
  refine ⟨hnode, hkeys, fun key hkey => ?_, ?_, ?_⟩
  · rw [field?_set _ _ _ hkey, valueAt?_singleton]
    split <;> rfl
  · rw [valueAt?_singleton, if_neg hf]
    exact hformals
  · rw [valueAt?_singleton, if_neg hm]
    exact hmembers

/-- One key is read: it is new, and its value is taken. -/
theorem take_takes {e r : Entry} {k v : Node} (h : e.take k v = .ok r) :
    k.value ∉ e.keys.map Node.value ∧ e.Takes [(k, v)] r := by
  unfold take at h
  split at h
  · cases h
  next hfree =>
  refine ⟨by simpa using hfree, ?_⟩
  split at h
  · next hk =>
    cases hv : FormalEntry.listOf v with
    | error err => simp [hv, Except.map] at h
    | ok formals =>
      simp only [hv, Except.map, Except.ok.injEq] at h
      exact h ▸ .ofFormals e (eq_of_beq hk) hv
  next hf =>
  split at h
  · next hk =>
    cases hv : Entry.listOf v with
    | error err => simp [hv, Except.map] at h
    | ok members =>
      simp only [hv, Except.map, Except.ok.injEq] at h
      exact h ▸ .ofMembers e (eq_of_beq hk) hv
  next hm =>
  cases h
  exact .ofField e v (by simpa using hf) (by simpa using hm)

/-- A new key is read if its value can be read. -/
theorem exists_take (e : Entry) {k v : Node} (hfree : k.value ∉ e.keys.map Node.value)
    (hf : k.value = Text.ofString "formals" → ∃ formals, FormalEntry.listOf v = .ok formals)
    (hm : k.value = Text.ofString "members" → ∃ members, Entry.listOf v = .ok members) :
    ∃ r, e.take k v = .ok r := by
  unfold take
  rw [if_neg (by simpa using hfree)]
  split
  · next hk =>
    obtain ⟨formals, hv⟩ := hf (eq_of_beq hk)
    exact ⟨_, by rw [hv]; rfl⟩
  split
  · next hk =>
    obtain ⟨members, hv⟩ := hm (eq_of_beq hk)
    exact ⟨_, by rw [hv]; rfl⟩
  · exact ⟨_, rfl⟩

/-- Keys read one after the other, none of which repeats an earlier one. -/
theorem Takes.append {e f r : Entry} {xs ys : List (Node × Node)} (h : e.Takes xs f)
    (k : f.Takes ys r) (hd : ∀ key ∈ xs.map (·.1.value), key ∉ ys.map (·.1.value)) :
    e.Takes (xs ++ ys) r := by
  -- A key of the first part has no value in the second.
  have hvalue : ∀ key, valueAt? (xs ++ ys) key = (valueAt? ys key).or (valueAt? xs key) := by
    intro key
    rw [valueAt?_append]
    by_cases hkey : key ∈ xs.map (·.1.value)
    · rw [valueAt?_eq_none (hd key hkey), Option.or_none, Option.none_or]
    · rw [valueAt?_eq_none hkey, Option.or_none, Option.none_or]
  refine ⟨k.node.trans h.node, ?_, fun key hkey => ?_, ?_, ?_⟩
  · rw [k.keys, h.keys, List.map_append, List.append_assoc]
  · rw [k.fields key hkey, h.fields key hkey, hvalue, Option.or_assoc]
  · have hk := k.formals
    rw [hvalue]
    cases hy : valueAt? ys "formals" with
    | some v =>
      rw [hy] at hk
      exact hk
    | none =>
      rw [hy] at hk
      rw [Option.none_or, hk]
      exact h.formals
  · have hk := k.members
    rw [hvalue]
    cases hy : valueAt? ys "members" with
    | some v =>
      rw [hy] at hk
      exact hk
    | none =>
      rw [hy] at hk
      rw [Option.none_or, hk]
      exact h.members

theorem Takes.nil (e : Entry) : e.Takes [] e :=
  ⟨rfl, (List.append_nil _).symm, fun _ _ => rfl, rfl, rfl⟩

theorem ofPairs_takes {e r : Entry} {pairs : List (Node × Node)} (h : Entry.ofPairs e pairs = .ok r) :
    (pairs.map (·.1.value)).Nodup ∧
      (∀ key ∈ pairs.map (·.1.value), key ∉ e.keys.map Node.value) ∧ e.Takes pairs r := by
  induction pairs generalizing e with
  | nil =>
    rw [Entry.ofPairs] at h
    cases h
    exact ⟨.nil, by simp, .nil _⟩
  | cons kv rest ih =>
    obtain ⟨k, v⟩ := kv
    rw [ofPairs_cons] at h
    cases hk : e.take k v with
    | error err => simp [hk, Except.bind] at h
    | ok f =>
      rw [hk] at h
      obtain ⟨hfree, hone⟩ := take_takes hk
      obtain ⟨hnodup, hrest, htakes⟩ := ih h
      have hkeys : f.keys.map Node.value = e.keys.map Node.value ++ [k.value] := by simp [hone.keys]
      simp only [hkeys, List.mem_append, List.mem_singleton, not_or] at hrest
      have hnew : k.value ∉ rest.map (·.1.value) := fun hmem => (hrest _ hmem).2 rfl
      refine ⟨List.nodup_cons.mpr ⟨hnew, hnodup⟩, ?_, hone.append htakes (by simpa using hnew)⟩
      exact List.forall_mem_cons.mpr ⟨hfree, fun key hkey => (hrest key hkey).1⟩

theorem exists_ofPairs {e : Entry} {pairs : List (Node × Node)}
    (hn : (pairs.map (·.1.value)).Nodup)
    (hfree : ∀ key ∈ pairs.map (·.1.value), key ∉ e.keys.map Node.value)
    (hf : ∀ v, valueAt? pairs "formals" = some v → ∃ formals, FormalEntry.listOf v = .ok formals)
    (hm : ∀ v, valueAt? pairs "members" = some v → ∃ members, Entry.listOf v = .ok members) :
    ∃ r, Entry.ofPairs e pairs = .ok r := by
  induction pairs generalizing e with
  | nil => exact ⟨e, by rw [Entry.ofPairs]⟩
  | cons kv rest ih =>
    obtain ⟨k, v⟩ := kv
    obtain ⟨hnew, hn⟩ := List.nodup_cons.mp hn
    obtain ⟨hfree, hrest⟩ := List.forall_mem_cons.mp hfree
    dsimp only at hnew hfree
    -- A value of the other keys is a value of all keys.
    have hlater : ∀ key w, valueAt? rest key = some w → valueAt? ((k, v) :: rest) key = some w := by
      intro key w hw
      by_cases hk : k.value = key
      · rw [valueAt?_eq_none (hk ▸ hnew)] at hw
        cases hw
      · rw [valueAt?_cons_of_ne hk, hw]
    have hown : ∀ key, k.value = key → valueAt? ((k, v) :: rest) key = some v.resolved := by
      rintro _ rfl
      exact valueAt?_cons_self
    obtain ⟨f, hk⟩ := e.exists_take (v := v) hfree
      (fun hk => by
        obtain ⟨formals, h⟩ := hf _ (hown _ hk)
        exact ⟨formals, by rw [← h, FormalEntry.listOf, FormalEntry.listOf, listItems_resolved]⟩)
      (fun hk => by
        obtain ⟨members, h⟩ := hm _ (hown _ hk)
        exact ⟨members, by rw [← h, listOf_eq, listOf_eq, listItems_resolved]⟩)
    obtain ⟨_, hone⟩ := take_takes hk
    rw [ofPairs_cons, hk]
    refine ih hn (fun key hkey => ?_) (fun w hw => hf w (hlater _ w hw)) fun w hw => hm w (hlater _ w hw)
    rw [hone.keys]
    simp only [List.map_append, List.map_cons, List.map_nil, List.mem_append, List.mem_singleton, not_or]
    exact ⟨hrest key hkey, fun h => hnew (h ▸ hkey)⟩

end Entry

/-! ## What is read -/

/-- A formal holds the last values of its keys. -/
def FormalEntry.Holds (n : Node) (f : FormalEntry) : Prop :=
  ∃ p t pairs, n.resolved = .mapping p t pairs ∧
    f = { node := n.resolved
          name := valueAt? pairs.reverse "name"
          type := valueAt? pairs.reverse "type" }

/-- An entry holds the values of its keys, which differ. -/
structure Entry.Holds (n : Node) (e : Entry) (pairs : List (Node × Node)) : Prop where
  node : e.node = n.resolved
  distinct : (pairs.map (·.1.value)).Nodup
  keys : e.keys = pairs.map (·.1)
  fields : ∀ key ∈ fieldKeys, e.field? key = valueAt? pairs key
  formals : match valueAt? pairs "formals" with
    | none => e.formals = []
    | some v => ReadList FormalEntry.Holds v e.formals
  members : match valueAt? pairs "members" with
    | none => e.members = []
    | some v => ReadList (fun i m => Entry.ofNode i = .ok m) v e.members

/-- The keys of each formal of an entry, and of the entries inside it, are as asked for. -/
inductive Entry.FormalsKeep (rule : List Text → Prop) : Entry → Prop
  | intro {e : Entry} (own : ∀ f ∈ e.formals, rule f.node.keyTexts)
      (below : ∀ m ∈ e.members, Entry.FormalsKeep rule m) : Entry.FormalsKeep rule e

theorem Entry.formalsKeep_true (e : Entry) : e.FormalsKeep fun _ => True :=
  .intro (fun _ _ => trivial) fun m _ => m.formalsKeep_true
termination_by sizeOf e
decreasing_by
  next hm =>
  cases e
  have hlt := List.sizeOf_lt_of_mem hm
  simp only [Entry.mk.sizeOf_spec] at hlt ⊢
  omega

theorem isFormal_iff_read {rule : List Text → Prop} {n : Node} :
    IsFormal (fun keys => FormalKeys keys ∧ rule keys) n ↔
      ∃ f, FormalEntry.ofNode n = .ok f ∧ rule f.node.keyTexts := by
  simp only [FormalEntry.ofNode_eq_ok]
  constructor
  · rintro ⟨p, t, pairs, hn, hkeys, hrule⟩
    exact ⟨_, ⟨p, t, pairs, hn, hkeys, rfl⟩, hrule⟩
  · rintro ⟨_, ⟨p, t, pairs, hn, hkeys, rfl⟩, hrule⟩
    exact ⟨p, t, pairs, hn, hkeys, hrule⟩

theorem Entry.ofNode_takes {n : Node} {e : Entry} (h : Entry.ofNode n = .ok e) :
    ∃ p t pairs, n.resolved = .mapping p t pairs ∧ (pairs.map (·.1.value)).Nodup ∧
      Entry.Takes { node := n.resolved } pairs e := by
  rw [Entry.ofNode_eq] at h
  cases hn : n.resolved with
  | mapping p t pairs =>
    rw [hn] at h
    obtain ⟨hnodup, _, htakes⟩ := Entry.ofPairs_takes h
    exact ⟨p, t, pairs, rfl, hnodup, htakes⟩
  | scalar p t style value => simp [hn] at h
  | sequence p t items => simp [hn] at h
  | reference p name target => simp [hn] at h

theorem Entry.ofNode_holds {n : Node} {e : Entry} (h : Entry.ofNode n = .ok e) :
    ∃ p t pairs, n.resolved = .mapping p t pairs ∧ e.Holds n pairs := by
  obtain ⟨p, t, pairs, hn, hnodup, htakes⟩ := Entry.ofNode_takes h
  have hblank : ∀ key, Entry.field? { node := n.resolved } key = none := by
    intro key
    change (List.replicate 9 none)[fieldKeys.idxOf key]?.join = none
    rw [List.getElem?_replicate]
    split <;> rfl
  refine ⟨p, t, pairs, hn, htakes.node, hnodup, htakes.keys, fun key hkey => ?_, ?_, ?_⟩
  · rw [htakes.fields key hkey, hblank, Option.or_none]
  · have hformals := htakes.formals
    cases hv : valueAt? pairs "formals" with
    | none =>
      rw [hv] at hformals
      exact hformals
    | some v =>
      rw [hv] at hformals
      refine (readList_eq_ok.mp hformals).imp fun i f hf => ?_
      obtain ⟨q, u, others, hi, _, hf⟩ := FormalEntry.ofNode_eq_ok.mp hf
      exact ⟨q, u, others, hi, hf⟩
  · have hmembers := htakes.members
    cases hv : valueAt? pairs "members" with
    | none =>
      rw [hv] at hmembers
      exact hmembers
    | some v =>
      rw [hv] at hmembers
      exact readList_eq_ok.mp ((Entry.listOf_eq v).symm.trans hmembers)

theorem Entry.Takes.formalsKeep_iff {n : Node} {e : Entry} {pairs : List (Node × Node)}
    {rule : List Text → Prop} (h : Entry.Takes { node := n } pairs e) : e.FormalsKeep rule ↔
      (∀ v, valueAt? pairs "formals" = some v →
        ∃ fs, FormalEntry.listOf v = .ok fs ∧ ∀ f ∈ fs, rule f.node.keyTexts) ∧
      ∀ v, valueAt? pairs "members" = some v →
        ∃ ms, Entry.listOf v = .ok ms ∧ ∀ m ∈ ms, m.FormalsKeep rule := by
  have hformals := h.formals
  have hmembers := h.members
  constructor
  · rintro ⟨own, below⟩
    refine ⟨fun v hv => ?_, fun v hv => ?_⟩
    · rw [hv] at hformals
      exact ⟨_, hformals, own⟩
    · rw [hv] at hmembers
      exact ⟨_, hmembers, below⟩
  · rintro ⟨hf, hm⟩
    refine ⟨?_, ?_⟩
    · cases hv : valueAt? pairs "formals" with
      | none => simp_all
      | some v =>
        obtain ⟨fs, hfs, hall⟩ := hf v hv
        rw [hv] at hformals
        cases hfs.symm.trans hformals
        exact hall
    · cases hv : valueAt? pairs "members" with
      | none => simp_all
      | some v =>
        obtain ⟨ms, hms, hall⟩ := hm v hv
        rw [hv] at hmembers
        cases hms.symm.trans hmembers
        exact hall

theorem sizeOf_item_lt {n v i : Node} {p q : Yaml.Place} {t u : Text} {pairs : List (Node × Node)}
    {key : Text} {items : List Node} (hn : n.resolved = .mapping p t pairs) (hv : valueAt? pairs key = some v)
    (hs : v.resolved = .sequence q u items) (hi : i ∈ items) : sizeOf i < sizeOf n := by
  obtain ⟨kv, hfind, rfl⟩ := Option.map_eq_some_iff.mp hv
  rw [Node.resolved_resolved] at hs
  have hmem := List.sizeOf_lt_of_mem hi
  have hpair := List.sizeOf_lt_of_mem (List.mem_of_find?_eq_some hfind)
  have hvalue := Node.sizeOf_resolved_le kv.2
  have hwhole := Node.sizeOf_resolved_le n
  rw [hs, Node.sequence.sizeOf_spec] at hvalue
  rw [hn, Node.mapping.sizeOf_spec] at hwhole
  obtain ⟨k, w⟩ := kv
  simp only [Prod.mk.sizeOf_spec] at hpair
  simp only at hvalue
  omega

/-- The nodes that are read are the entries whose formals have only the two keys; whether a formal keeps a
further rule can be told from what was read. -/
theorem isEntry_iff_read (rule : List Text → Prop) (n : Node) :
    IsEntry (fun keys => FormalKeys keys ∧ rule keys) n ↔
      ∃ e, Entry.ofNode n = .ok e ∧ e.FormalsKeep rule := by
  -- Members may stand behind references, so the induction is on the size and not on the node.
  induction hsize : sizeOf n using Nat.strongRecOn generalizing n with
  | ind size ih =>
  subst hsize
  have hmembers : ∀ {p t pairs v}, n.resolved = .mapping p t pairs → valueAt? pairs "members" = some v →
      (IsListOf (IsEntry fun keys => FormalKeys keys ∧ rule keys) v ↔
        ∃ ms, Entry.listOf v = .ok ms ∧ ∀ m ∈ ms, m.FormalsKeep rule) := by
    intro p t pairs v hn hv
    rw [Entry.listOf_eq, exists_readList_iff]
    exact IsListOf.congr fun q u items hs i hi => ih _ (sizeOf_item_lt hn hv hs hi) i rfl
  have hformals : ∀ v, IsListOf (IsFormal fun keys => FormalKeys keys ∧ rule keys) v ↔
      ∃ fs, FormalEntry.listOf v = .ok fs ∧ ∀ f ∈ fs, rule f.node.keyTexts := by
    intro v
    rw [FormalEntry.listOf, exists_readList_iff]
    exact IsListOf.congr fun _ _ _ _ _ _ => isFormal_iff_read
  rw [isEntry_iff]
  constructor
  · rintro ⟨p, t, pairs, hn, hnodup, hf, hm⟩
    have hf := fun v hv => (hformals v).mp (hf v hv)
    have hm := fun v hv => (hmembers hn hv).mp (hm v hv)
    rw [hn] at hnodup
    obtain ⟨e, he⟩ := Entry.exists_ofPairs (e := { node := n.resolved }) hnodup (by simp)
      (fun v hv => (hf v hv).imp fun _ h => h.1) fun v hv => (hm v hv).imp fun _ h => h.1
    refine ⟨e, ?_, (Entry.ofPairs_takes he).2.2.formalsKeep_iff.mpr ⟨hf, hm⟩⟩
    rw [Entry.ofNode_eq, ← he, hn]
  · rintro ⟨e, he, hkeep⟩
    obtain ⟨p, t, pairs, hn, hnodup, htakes⟩ := Entry.ofNode_takes he
    obtain ⟨hf, hm⟩ := htakes.formalsKeep_iff.mp hkeep
    refine ⟨p, t, pairs, hn, ?_, fun v hv => (hformals v).mpr (hf v hv),
      fun v hv => (hmembers hn hv).mpr (hm v hv)⟩
    rw [hn]
    exact hnodup

/-- A node is read as an entry exactly if it is one, where a formal may repeat its keys; with distinct keys
everywhere, it is an entry exactly if it is read and no formal that was read repeats a key. What is read are
the values of the keys. -/
theorem entry_read_iff (n : Node) :
    ((∃ e, Entry.ofNode n = .ok e) ↔ IsEntry FormalKeys n) ∧
    (IsEntry (fun keys => FormalKeys keys ∧ keys.Nodup) n ↔
      ∃ e, Entry.ofNode n = .ok e ∧ e.FormalsKeep List.Nodup) ∧
    ∀ e, Entry.ofNode n = .ok e → ∃ p t pairs, n.resolved = .mapping p t pairs ∧ e.Holds n pairs := by
  refine ⟨?_, isEntry_iff_read List.Nodup n, fun e he => Entry.ofNode_holds he⟩
  have hany := isEntry_iff_read (fun _ => True) n
  simp only [and_true] at hany
  rw [hany]
  exact exists_congr fun e => ⟨fun h => ⟨h, e.formalsKeep_true⟩, fun h => h.1⟩

/-- A function whose formal has two names. -/
def twiceNamed : Node :=
  let word (column : Nat) (s : String) : Node := .scalar (.on 1 column) Tag.str .plain (Text.ofString s)
  .mapping (.on 1 1) Tag.map
    [(word 1 "fn", word 5 "f"),
      (word 8 "formals", .sequence (.on 1 17) Tag.seq
        [.mapping (.on 1 18) Tag.map
          [(word 19 "name", word 25 "a"), (word 28 "name", word 34 "b"), (word 37 "type", word 43 "int")]])]

theorem twiceNamed_read : (∃ e, Entry.ofNode twiceNamed = .ok e ∧
      e.formals.map (fun f => f.name.map Node.value) = [some (Text.ofString "b")]) ∧
    ¬ IsEntry (fun keys => FormalKeys keys ∧ keys.Nodup) twiceNamed := by
  have hfacts : (Entry.ofNode twiceNamed).toOption.any (fun e => decide
      (e.formals.map (fun f => f.name.map Node.value) = [some (Text.ofString "b")] ∧
        ∃ f ∈ e.formals, ¬ f.node.keyTexts.Nodup)) = true := by decide +kernel
  cases he : Entry.ofNode twiceNamed with
  | error err =>
    rw [he] at hfacts
    cases hfacts
  | ok e =>
    rw [he] at hfacts
    obtain ⟨hname, f, hf, hrepeats⟩ := of_decide_eq_true hfacts
    refine ⟨⟨e, rfl, hname⟩, fun hentry => ?_⟩
    obtain ⟨e', he', own, _⟩ := (entry_read_iff twiceNamed).2.1.mp hentry
    cases he.symm.trans he'
    exact hrepeats (own f hf)

end Manifest

end DeclCheck
