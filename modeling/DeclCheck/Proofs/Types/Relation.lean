import DeclCheck.Proofs.Types.Shape
import Mathlib.Data.List.Perm.Subperm

/-!
# The comparison of types as a relation

The error type is the same as every type, at any depth of arrays, so that the comparison is no equivalence: two
different types are both the same as the error type. Apart from that it is one. A store lists no type twice,
and so types without the error type are the same only if they have one number.

A store may be asked for the array of a number that it has not given yet, and then arrays may contain each
other. The comparison of two different arrays of this kind never ends. If arrays are only asked for of numbers that
the store has given, every comparison ends, within as many arrays as there are types.
-/
namespace DeclCheck

namespace TypeStore

/-! ## Stores -/

/-- What a store can be asked for. -/
inductive Request where
  | named (name : NameId)
  | array (elem : TypeId)
  deriving DecidableEq, Repr

/-- The store after a request. -/
def serve (s : TypeStore) : Request → TypeStore
  | .named name => (s.named name).1
  | .array elem => (s.array elem).1

/-- The store that is asked for some types in order. -/
def serveAll (requests : List Request) : TypeStore := requests.foldl serve initial

/-- Arrays are asked for of numbers that the store has given by then. -/
def KnownElems : TypeStore → List Request → Prop
  | _, [] => True
  | s, .named name :: rest => KnownElems (s.serve (.named name)) rest
  | s, .array elem :: rest => elem < s.size ∧ KnownElems (s.serve (.array elem)) rest

instance decidableKnownElems : (s : TypeStore) → (requests : List Request) → Decidable (s.KnownElems requests)
  | _, [] => isTrue trivial
  | s, .named name :: rest => decidableKnownElems (s.serve (.named name)) rest
  | s, .array elem :: rest =>
    have := decidableKnownElems (s.serve (.array elem)) rest
    inferInstanceAs (Decidable (_ ∧ _))

/-- The types of a store: an element belongs to arrays only and a name to named types only. -/
def IsPlain (t : Ty) : Prop := (t.kind ≠ .array → t.elem = 0) ∧ (t.kind ≠ .named → t.name = 0)

/-- A store of plain types that lists none twice. -/
structure Tidy (s : TypeStore) : Prop where
  plain : ∀ t ∈ s.types, IsPlain t
  nodup : s.types.toList.Nodup

variable {s : TypeStore}

theorem Tidy.initial : TypeStore.initial.Tidy := ⟨by simp [TypeStore.initial, builtinTypes, IsPlain], by decide⟩

theorem Tidy.intern (hs : s.Tidy) {t : Ty} (ht : t.kind ≠ .invalid) (hplain : IsPlain t) : (s.intern t).1.Tidy := by
  rcases s.intern_cases ht with ⟨i, hrun, -⟩ | ⟨hrun, hnot⟩
  · rwa [hrun]
  · rw [hrun]
    refine ⟨fun u hu => ?_, nodup_push hs.nodup hnot⟩
    rcases Array.mem_push.mp hu with hu | rfl
    · exact hs.plain u hu
    · exact hplain

theorem Tidy.serve (hs : s.Tidy) (r : Request) : (s.serve r).Tidy := by
  cases r with
  | named name => exact hs.intern (by simp) (by simp [IsPlain])
  | array elem =>
    show (s.array elem).1.Tidy
    unfold array
    split
    · exact hs
    · exact hs.intern (t := { kind := .array, elem }) (by simp) (by simp [IsPlain])

theorem tidy_serveAll (requests : List Request) : (serveAll requests).Tidy := by
  have hrun : ∀ (requests : List Request) {s : TypeStore}, s.Tidy → (requests.foldl TypeStore.serve s).Tidy := by
    intro requests
    induction requests with
    | nil => exact id
    | cons r rest ih => exact fun hs => ih (hs.serve r)
  exact hrun requests .initial

theorem Sound.serve_named (hs : s.Sound) (name : NameId) : (s.serve (.named name)).Sound :=
  (hs.intern (.inl ⟨name, rfl⟩)).1

theorem Sound.serve_array (hs : s.Sound) {elem : TypeId} (helem : elem < s.size) : (s.serve (.array elem)).Sound := by
  show (s.array elem).1.Sound
  unfold array
  split
  · exact hs
  · next hne => exact (hs.intern (.inr ⟨elem, rfl, Nat.pos_of_ne_zero hne, helem⟩)).1

theorem sound_serveAll {requests : List Request} (h : initial.KnownElems requests) : (serveAll requests).Sound := by
  have hrun : ∀ (requests : List Request) {s : TypeStore}, s.Sound → s.KnownElems requests →
      (requests.foldl TypeStore.serve s).Sound := by
    intro requests
    induction requests with
    | nil => exact fun hs _ => hs
    | cons r rest ih =>
      intro s hs hknown
      cases r with
      | named name => exact ih (hs.serve_named name) hknown
      | array elem => exact ih (hs.serve_array hknown.1) hknown.2
  exact hrun requests .initial h

theorem mem_of_get? {id : TypeId} {t : Ty} (h : s.get? id = some t) : t ∈ s.types :=
  Array.mem_of_getElem? (get?_eq_some h).2

/-- Types of one kind with one element and one name have one number. -/
theorem Tidy.eq_of_parts (hs : s.Tidy) {a b : TypeId} {t u : Ty} (ha : s.get? a = some t) (hb : s.get? b = some u)
    (hkind : t.kind = u.kind) (helem : t.kind = .array → t.elem = u.elem) (hname : t.kind = .named → t.name = u.name) :
    a = b := by
  obtain ⟨htelem, htname⟩ := hs.plain t (mem_of_get? ha)
  obtain ⟨huelem, huname⟩ := hs.plain u (mem_of_get? hb)
  have htu : t = u := by
    obtain ⟨k, e, n⟩ := t
    obtain ⟨l, f, m⟩ := u
    obtain rfl : k = l := hkind
    have he : e = f := by
      by_cases h : k = .array
      · exact helem h
      · exact (htelem h).trans (huelem h).symm
    have hn : n = m := by
      by_cases h : k = .named
      · exact hname h
      · exact (htname h).trans (huname h).symm
    rw [he, hn]
  exact get?_inj hs.nodup ha (htu ▸ hb)

/-! ## The relation -/

/-- The innermost element of a type is the error type. -/
inductive HasError (s : TypeStore) : TypeId → Prop
  | error {id : TypeId} {t : Ty} (h : s.get? id = some t) (hk : t.kind = .error) : HasError s id
  | array {id : TypeId} {t : Ty} (h : s.get? id = some t) (hk : t.kind = .array) (helem : HasError s t.elem) :
      HasError s id

variable {a b c : TypeId} {n : Nat}

theorem sameWithin_self (n : Nat) (a : TypeId) : s.sameWithin n a a = true := by
  cases n <;> simp [sameWithin]

/-- Two types are the same if they have one number or one of them is the error type, if they are named alike, and
if they are arrays of the same types. -/
theorem sameWithin_succ_iff : s.sameWithin (n + 1) a b = true ↔ a = b ∨ ∃ t u, s.get? a = some t ∧ s.get? b = some u ∧
    (t.kind = .error ∨ u.kind = .error ∨ t.kind = .named ∧ u.kind = .named ∧ t.name = u.name ∨
      t.kind = .array ∧ u.kind = .array ∧ s.sameWithin n t.elem u.elem = true) := by
  by_cases hab : a = b
  · subst hab
    simp [sameWithin_self]
  cases ha : s.get? a with
  | none => simp [sameWithin, hab, ha]
  | some t =>
    cases hb : s.get? b with
    | none => simp [sameWithin, hab, ha, hb]
    | some u =>
      simp only [sameWithin_succ hab ha hb, Bool.or_eq_true, Bool.and_eq_true, beq_iff_eq, hab, false_or,
        Option.some.injEq, or_assoc]
      constructor
      · rintro (h | h | ⟨hk, h⟩)
        · exact ⟨t, u, rfl, rfl, .inl h⟩
        · exact ⟨t, u, rfl, rfl, .inr (.inl h)⟩
        · refine ⟨t, u, rfl, rfl, .inr (.inr ?_)⟩
          split at h
          · next ht => exact .inl ⟨ht, hk ▸ ht, beq_iff_eq.mp h⟩
          · next ht => exact .inr ⟨ht, hk ▸ ht, h⟩
          · cases h
      · rintro ⟨_, _, rfl, rfl, h | h | ⟨ht, hu, h⟩ | ⟨ht, hu, h⟩⟩
        · exact .inl h
        · exact .inr (.inl h)
        · refine .inr (.inr ⟨ht.trans hu.symm, ?_⟩)
          rw [ht]
          exact beq_iff_eq.mpr h
        · refine .inr (.inr ⟨ht.trans hu.symm, ?_⟩)
          rw [ht]
          exact h

theorem sameWithin_symm (h : s.sameWithin n a b = true) : s.sameWithin n b a = true := by
  induction n generalizing a b with
  | zero =>
    simp only [sameWithin, beq_iff_eq] at h ⊢
    exact h.symm
  | succ n ih =>
    rw [sameWithin_succ_iff] at h ⊢
    rcases h with rfl | ⟨t, u, ha, hb, h⟩
    · exact .inl rfl
    · refine .inr ⟨u, t, hb, ha, ?_⟩
      rcases h with h | h | ⟨ht, hu, hname⟩ | ⟨ht, hu, helem⟩
      · exact .inr (.inl h)
      · exact .inl h
      · exact .inr (.inr (.inl ⟨hu, ht, hname.symm⟩))
      · exact .inr (.inr (.inr ⟨hu, ht, ih helem⟩))

theorem sameWithin_comm (n : Nat) (a b : TypeId) : s.sameWithin n a b = s.sameWithin n b a :=
  Bool.eq_iff_iff.mpr ⟨sameWithin_symm, sameWithin_symm⟩

/-- What two types share with a third is shared by them, unless the third ends in the error type. -/
theorem sameWithin_trans (hb : ¬ s.HasError b) (hab : s.sameWithin n a b = true) (hbc : s.sameWithin n b c = true) :
    s.sameWithin n a c = true := by
  induction n generalizing a b c with
  | zero =>
    simp only [sameWithin, beq_iff_eq] at *
    exact hab.trans hbc
  | succ n ih =>
    rcases sameWithin_succ_iff.mp hab with rfl | ⟨t, u, ha, hu, h⟩
    · exact hbc
    rcases sameWithin_succ_iff.mp hbc with rfl | ⟨u', v, hu', hc, h'⟩
    · exact hab
    cases hu.symm.trans hu'
    have hne : u.kind ≠ .error := fun hk => hb (.error hu hk)
    refine sameWithin_succ_iff.mpr (.inr ⟨t, v, ha, hc, ?_⟩)
    rcases h with h | h | ⟨ht, hk, hname⟩ | ⟨ht, hk, helem⟩
    · exact .inl h
    · exact absurd h hne
    · rcases h' with h' | h' | ⟨-, hv, hname'⟩ | ⟨hk', -, -⟩
      · exact absurd h' hne
      · exact .inr (.inl h')
      · exact .inr (.inr (.inl ⟨ht, hv, hname.trans hname'⟩))
      · cases hk.symm.trans hk'
    · rcases h' with h' | h' | ⟨hk', -, -⟩ | ⟨-, hv, helem'⟩
      · exact absurd h' hne
      · exact .inr (.inl h')
      · cases hk.symm.trans hk'
      · exact .inr (.inr (.inr ⟨ht, hv, ih (fun he => hb (.array hu hk he)) helem helem'⟩))

/-- Away from the error type, types are the same only if they have one number. -/
theorem Tidy.eq_of_sameWithin (hs : s.Tidy) (ha : ¬ s.HasError a) (hb : ¬ s.HasError b)
    (h : s.sameWithin n a b = true) : a = b := by
  induction n generalizing a b with
  | zero => simpa [sameWithin] using h
  | succ n ih =>
    rcases sameWithin_succ_iff.mp h with rfl | ⟨t, u, ht, hu, h⟩
    · rfl
    rcases h with h | h | ⟨hk, hl, hname⟩ | ⟨hk, hl, helem⟩
    · exact absurd (.error ht h) ha
    · exact absurd (.error hu h) hb
    · refine hs.eq_of_parts ht hu (hk.trans hl.symm) (fun hk' => ?_) fun _ => hname
      cases hk.symm.trans hk'
    · have hel := ih (fun he => ha (.array ht hk he)) (fun he => hb (.array hu hl he)) helem
      refine hs.eq_of_parts ht hu (hk.trans hl.symm) (fun _ => hel) fun hk' => ?_
      cases hk.symm.trans hk'

/-! ## Comparing without a bound -/

/-- The comparison of two types, through as many arrays as there may be, and its answer. -/
inductive Compared (s : TypeStore) : TypeId → TypeId → Bool → Prop
  | self (a : TypeId) : Compared s a a true
  | unknown {a b : TypeId} (hab : a ≠ b) (h : s.get? a = none ∨ s.get? b = none) : Compared s a b false
  | error {a b : TypeId} {t u : Ty} (hab : a ≠ b) (ha : s.get? a = some t) (hb : s.get? b = some u)
      (h : t.kind = .error ∨ u.kind = .error) : Compared s a b true
  | kinds {a b : TypeId} {t u : Ty} (hab : a ≠ b) (ha : s.get? a = some t) (hb : s.get? b = some u)
      (ht : t.kind ≠ .error) (hu : u.kind ≠ .error) (h : t.kind ≠ u.kind) : Compared s a b false
  | names {a b : TypeId} {t u : Ty} (hab : a ≠ b) (ha : s.get? a = some t) (hb : s.get? b = some u)
      (ht : t.kind = .named) (hu : u.kind = .named) : Compared s a b (t.name == u.name)
  | elems {a b : TypeId} {t u : Ty} {r : Bool} (hab : a ≠ b) (ha : s.get? a = some t) (hb : s.get? b = some u)
      (ht : t.kind = .array) (hu : u.kind = .array) (hr : Compared s t.elem u.elem r) : Compared s a b r
  | builtin {a b : TypeId} {t u : Ty} (hab : a ≠ b) (ha : s.get? a = some t) (hb : s.get? b = some u)
      (h : t.kind = u.kind) (herror : t.kind ≠ .error) (hnamed : t.kind ≠ .named) (harray : t.kind ≠ .array) :
      Compared s a b false

namespace Compared

theorem symm {r : Bool} (h : s.Compared a b r) : s.Compared b a r := by
  induction h with
  | self a => exact .self a
  | unknown hab h => exact .unknown hab.symm h.symm
  | error hab ha hb h => exact .error hab.symm hb ha h.symm
  | kinds hab ha hb ht hu h => exact .kinds hab.symm hb ha hu ht h.symm
  | @names a b t u hab ha hb ht hu =>
    rw [BEq.comm (a := t.name)]
    exact .names hab.symm hb ha hu ht
  | elems hab ha hb ht hu _ ih => exact .elems hab.symm hb ha hu ht ih
  | builtin hab ha hb h herror hnamed harray =>
    exact .builtin hab.symm hb ha h.symm (h ▸ herror) (h ▸ hnamed) (h ▸ harray)

/-- With a bound that is high enough, the comparison gives the answer that it gives without one. -/
theorem exists_bound {r : Bool} (h : s.Compared a b r) : ∃ n, ∀ m, n ≤ m → s.sameWithin m a b = r := by
  -- One step of the bounded comparison gives the answer, or that of the elements.
  have hstep : ∀ {a b : TypeId} {r : Bool}, (∀ m, s.sameWithin (m + 1) a b = r) →
      ∃ n, ∀ m, n ≤ m → s.sameWithin m a b = r := by
    intro a b r h
    refine ⟨1, fun m hm => ?_⟩
    obtain ⟨m, rfl⟩ : ∃ k, m = k + 1 := ⟨m - 1, by omega⟩
    exact h m
  induction h with
  | self a => exact ⟨0, fun m _ => sameWithin_self m a⟩
  | unknown hab h =>
    refine hstep fun m => ?_
    rcases h with h | h <;> simp [sameWithin, hab, h]
  | error hab ha hb h =>
    refine hstep fun m => ?_
    rw [sameWithin_succ hab ha hb]
    rcases h with h | h <;> simp [h]
  | kinds hab ha hb ht hu h =>
    refine hstep fun m => ?_
    rw [sameWithin_succ hab ha hb]
    simp [ht, hu, h]
  | names hab ha hb ht hu =>
    refine hstep fun m => ?_
    rw [sameWithin_succ hab ha hb]
    simp [ht, hu]
  | elems hab ha hb ht hu _ ih =>
    obtain ⟨n, hn⟩ := ih
    refine ⟨n + 1, fun m hm => ?_⟩
    obtain ⟨m, rfl⟩ : ∃ k, m = k + 1 := ⟨m - 1, by omega⟩
    rw [sameWithin_succ hab ha hb, ht, hu]
    exact hn m (by omega)
  | @builtin a b t u hab ha hb h herror hnamed harray =>
    refine hstep fun m => ?_
    rw [sameWithin_succ hab ha hb, ← h]
    cases hk : t.kind <;> simp_all

theorem unique {r q : Bool} (h : s.Compared a b r) (h' : s.Compared a b q) : r = q := by
  obtain ⟨m, hm⟩ := h.exists_bound
  obtain ⟨n, hn⟩ := h'.exists_bound
  exact (hm (max m n) (le_max_left m n)).symm.trans (hn (max m n) (le_max_right m n))

/-- A bounded comparison that answers yes is not cut short. -/
theorem of_sameWithin (h : s.sameWithin n a b = true) : s.Compared a b true := by
  by_cases hab : a = b
  · exact hab ▸ .self a
  induction n generalizing a b with
  | zero => exact absurd (by simpa [sameWithin] using h) hab
  | succ n ih =>
    obtain ⟨t, u, ha, hb, h⟩ := (sameWithin_succ_iff.mp h).resolve_left hab
    rcases h with h | h | ⟨ht, hu, hname⟩ | ⟨ht, hu, helem⟩
    · exact .error hab ha hb (.inl h)
    · exact .error hab ha hb (.inr h)
    · have hcompared := names hab ha hb ht hu
      rwa [hname, BEq.rfl] at hcompared
    · by_cases hel : t.elem = u.elem
      · exact .elems hab ha hb ht hu (hel ▸ .self t.elem)
      · exact .elems hab ha hb ht hu (ih helem hel)

/-- If the elements of arrays are compared to the end, so are the arrays. -/
theorem succ (helems : ∀ t u, s.get? a = some t → s.get? b = some u → t.kind = .array → u.kind = .array →
      s.Compared t.elem u.elem (s.sameWithin n t.elem u.elem)) : s.Compared a b (s.sameWithin (n + 1) a b) := by
  cases hr : s.sameWithin (n + 1) a b with
  | true => exact of_sameWithin hr
  | false =>
    have hab : a ≠ b := by
      rintro rfl
      rw [sameWithin_self] at hr
      cases hr
    cases ha : s.get? a with
    | none => exact .unknown hab (.inl ha)
    | some t =>
      cases hb : s.get? b with
      | none => exact .unknown hab (.inr hb)
      | some u =>
        rw [sameWithin_succ hab ha hb] at hr
        simp only [Bool.or_eq_false_iff, beq_eq_false_iff_ne, Bool.and_eq_false_iff] at hr
        obtain ⟨⟨ht, hu⟩, hr⟩ := hr
        by_cases hk : t.kind = u.kind
        · replace hr := hr.resolve_left fun hne => hne hk
          by_cases hnamed : t.kind = .named
          · rw [hnamed] at hr
            dsimp only at hr
            have hcompared := names hab ha hb hnamed (hk ▸ hnamed)
            rwa [hr] at hcompared
          · by_cases harray : t.kind = .array
            · have hel := helems t u ha hb harray (hk ▸ harray)
              rw [harray] at hr
              dsimp only at hr
              rw [hr] at hel
              exact .elems hab ha hb harray (hk ▸ harray) hel
            · exact .builtin hab ha hb hk ht hnamed harray
        · exact .kinds hab ha hb ht hu hk

end Compared

/-! ## How far a comparison goes -/

/-- The number of arrays around the innermost element of a type. -/
inductive HasDepth (s : TypeStore) : TypeId → Nat → Prop
  | base {id : TypeId} (h : ∀ t, s.get? id = some t → t.kind ≠ .array) : HasDepth s id 0
  | array {id : TypeId} {t : Ty} {k : Nat} (h : s.get? id = some t) (hk : t.kind = .array) (helem : HasDepth s t.elem k) :
      HasDepth s id (k + 1)

/-- A type has an innermost element. -/
def Ends (s : TypeStore) (id : TypeId) : Prop := ∃ k, s.HasDepth id k

namespace HasDepth

variable {k : Nat}

theorem unique {j : Nat} (h : s.HasDepth a k) (h' : s.HasDepth a j) : k = j := by
  induction h generalizing j with
  | base h =>
    cases h' with
    | base => rfl
    | array hget hk _ => exact absurd hk (h _ hget)
  | array hget hk _ ih =>
    cases h' with
    | base h' => exact absurd hk (h' _ hget)
    | array hget' _ helem =>
      cases hget.symm.trans hget'
      rw [ih helem]

/-- The arrays around an innermost element are different types of the store. -/
theorem exists_arrays (h : s.HasDepth a k) : ∃ ids : List Nat, ids.length = k ∧ ids.Nodup ∧
    ∀ i ∈ ids, i < s.types.size ∧ ∃ j, s.HasDepth i j ∧ j ≤ k := by
  induction h with
  | base h => exact ⟨[], rfl, .nil, by simp⟩
  | @array id t k hget hk helem ih =>
    obtain ⟨ids, hlength, hnodup, hids⟩ := ih
    have hself : s.HasDepth id (k + 1) := .array hget hk helem
    have hnot : id ∉ ids := by
      intro hmem
      obtain ⟨-, j, hj, hle⟩ := hids id hmem
      have hdepth := hself.unique hj
      omega
    refine ⟨id :: ids, by rw [List.length_cons, hlength], List.nodup_cons.mpr ⟨hnot, hnodup⟩, fun i hi => ?_⟩
    rcases List.mem_cons.mp hi with rfl | hi
    · exact ⟨(Array.getElem?_eq_some_iff.mp (get?_eq_some hget).2).1, k + 1, hself, le_rfl⟩
    · obtain ⟨hlt, j, hj, hle⟩ := hids i hi
      exact ⟨hlt, j, hj, Nat.le_succ_of_le hle⟩

theorem le_size (h : s.HasDepth a k) : k ≤ s.types.size := by
  obtain ⟨ids, rfl, hnodup, hids⟩ := h.exists_arrays
  have hsub : ids ⊆ List.range s.types.size := fun i hi => List.mem_range.mpr (hids i hi).1
  simpa using (hnodup.subperm hsub).length_le

/-- A comparison with a type that ends goes no further than that type. -/
theorem compared (h : s.HasDepth a k) (hn : k < n) (b : TypeId) : s.Compared a b (s.sameWithin n a b) := by
  obtain ⟨n, rfl⟩ : ∃ m, n = m + 1 := ⟨n - 1, by omega⟩
  induction h generalizing n b with
  | base h => exact .succ fun t u ha _ ht _ => absurd ht (h t ha)
  | @array id t k hget hk _ ih =>
    refine .succ fun t' u ha _ _ _ => ?_
    cases hget.symm.trans ha
    obtain ⟨n, rfl⟩ : ∃ m, n = m + 1 := ⟨n - 1, by omega⟩
    exact ih u.elem n (by omega)

end HasDepth

/-- A comparison that ends meets a type that ends, unless the types have one number. -/
theorem Compared.ends {r : Bool} (hs : s.Tidy) (h : s.Compared a b r) : a = b ∨ s.Ends a ∨ s.Ends b := by
  have hbase : ∀ {id : TypeId} {t : Ty}, s.get? id = some t → t.kind ≠ .array → s.Ends id := by
    intro id t ht hk
    refine ⟨0, .base fun u hu => ?_⟩
    cases ht.symm.trans hu
    exact hk
  induction h with
  | self a => exact .inl rfl
  | unknown hab h =>
    rcases h with h | h
    · exact .inr (.inl ⟨0, .base fun t ht => by cases h.symm.trans ht⟩)
    · exact .inr (.inr ⟨0, .base fun t ht => by cases h.symm.trans ht⟩)
  | error hab ha hb h =>
    rcases h with h | h
    · exact .inr (.inl (hbase ha (by simp [h])))
    · exact .inr (.inr (hbase hb (by simp [h])))
  | @kinds a b t u hab ha hb ht hu h =>
    by_cases harray : t.kind = .array
    · exact .inr (.inr (hbase hb fun hu => h (harray.trans hu.symm)))
    · exact .inr (.inl (hbase ha harray))
  | names hab ha hb ht hu => exact .inr (.inl (hbase ha (by simp [ht])))
  | elems hab ha hb ht hu _ ih =>
    rcases ih with hel | ⟨k, hk⟩ | ⟨k, hk⟩
    · refine .inl (hs.eq_of_parts ha hb (ht.trans hu.symm) (fun _ => hel) fun hn => ?_)
      cases ht.symm.trans hn
    · exact .inr (.inl ⟨k + 1, .array ha ht hk⟩)
    · exact .inr (.inr ⟨k + 1, .array hb hu hk⟩)
  | builtin hab ha hb h herror hnamed harray => exact .inr (.inl (hbase ha harray))

/-- Where one of two types ends, the bound is high enough. -/
theorem compared_same (h : s.Ends a ∨ s.Ends b) : s.Compared a b (s.same a b) := by
  unfold same size
  rcases h with ⟨k, hk⟩ | ⟨k, hk⟩
  · exact hk.compared (Nat.lt_succ_of_le hk.le_size) b
  · rw [sameWithin_comm]
    exact (hk.compared (Nat.lt_succ_of_le hk.le_size) a).symm

/-- Where elements come before their arrays, every type ends. -/
theorem Sound.ends (hs : s.Sound) (a : TypeId) : s.Ends a := by
  induction a using Nat.strong_induction_on with
  | _ a ih =>
    by_cases harray : ∃ t, s.get? a = some t ∧ t.kind = .array
    · obtain ⟨t, ht, hk⟩ := harray
      obtain ⟨k, helem⟩ := ih t.elem (hs.array_elem (get?_eq_some ht).2 hk).2
      exact ⟨k + 1, .array ht hk helem⟩
    · exact ⟨0, .base fun t ht hk => harray ⟨t, ht, hk⟩⟩

theorem same_self (s : TypeStore) (a : TypeId) : s.same a a = true := sameWithin_self _ a

theorem Sound.compared_iff (hs : s.Sound) {r : Bool} : s.Compared a b r ↔ s.same a b = r := by
  have hsame : s.Compared a b (s.same a b) := compared_same (.inl (hs.ends a))
  exact ⟨hsame.unique, fun h => h ▸ hsame⟩

/-! ## Signatures -/

theorem samePairwise_self (s : TypeStore) (as : List TypeId) : s.samePairwise as as = true := by
  induction as with
  | nil => rfl
  | cons a as ih => simp [samePairwise, same_self, ih]

theorem samePairwise_comm (s : TypeStore) (as bs : List TypeId) : s.samePairwise as bs = s.samePairwise bs as := by
  induction as generalizing bs with
  | nil => cases bs <;> rfl
  | cons a as ih =>
    cases bs with
    | nil => rfl
    | cons b bs => simp only [samePairwise, same, sameWithin_comm _ a b, ih bs]

theorem samePairwise_trans {as bs cs : List TypeId} (hb : ∀ b ∈ bs, ¬ s.HasError b)
    (hab : s.samePairwise as bs = true) (hbc : s.samePairwise bs cs = true) : s.samePairwise as cs = true := by
  induction as generalizing bs cs with
  | nil =>
    cases bs with
    | nil => exact hbc
    | cons b bs => cases hab
  | cons a as ih =>
    cases bs with
    | nil => cases hab
    | cons b bs =>
      cases cs with
      | nil => cases hbc
      | cons c cs =>
        simp only [samePairwise, Bool.and_eq_true] at hab hbc ⊢
        obtain ⟨hhead, htail⟩ := List.forall_mem_cons.mp hb
        exact ⟨sameWithin_trans hhead hab.1 hbc.1, ih htail hab.2 hbc.2⟩

/-- The comparison of types and signatures is a compatibility: it ends on every two types, and the relation is an
equivalence but for what the error type does. -/
structure Compatibility (s : TypeStore) : Prop where
  compared : ∀ a b r, s.Compared a b r ↔ s.same a b = r
  same_refl : ∀ a, s.same a a = true
  same_symm : ∀ a b, s.same a b = s.same b a
  same_trans : ∀ a b c, ¬ s.HasError b → s.same a b = true → s.same b c = true → s.same a c = true
  same_iff_eq : ∀ a b, ¬ s.HasError a → ¬ s.HasError b → (s.same a b = true ↔ a = b)
  signature_refl : ∀ f, s.sameSignature f f = true
  signature_symm : ∀ f g, s.sameSignature f g = s.sameSignature g f
  signature_trans : ∀ f g h : Signature, ¬ s.HasError g.result → (∀ p ∈ g.params, ¬ s.HasError p) →
    s.sameSignature f g = true → s.sameSignature g h = true → s.sameSignature f h = true

/-- Whatever a store is asked for, its comparison is a compatibility, if arrays are asked for of numbers that it has
given. -/
theorem serveAll_compatibility (requests : List Request) (hknown : initial.KnownElems requests) :
    (serveAll requests).Compatibility := by
  have htidy := tidy_serveAll requests
  refine ⟨fun a b r => (sound_serveAll hknown).compared_iff, same_self _, sameWithin_comm _, fun a b c => sameWithin_trans,
    fun a b ha hb => ⟨htidy.eq_of_sameWithin ha hb, ?_⟩, fun f => ?_, fun f g => ?_,
    fun f g h hresult hparams hfg hgh => ?_⟩
  · rintro rfl
    exact same_self _ a
  · simp [sameSignature, same_self, samePairwise_self]
  · simp only [sameSignature, same, sameWithin_comm _ f.result, samePairwise_comm _ f.params, BEq.comm (a := f.name)]
  · simp only [sameSignature, Bool.and_eq_true, beq_iff_eq, and_assoc] at hfg hgh ⊢
    obtain ⟨hname, hfg, hps⟩ := hfg
    obtain ⟨hname', hgh, hps'⟩ := hgh
    exact ⟨hname.trans hname', sameWithin_trans hresult hfg hgh, samePairwise_trans hparams hps hps'⟩

/-- Arrays of the error type are the same as arrays of numbers and of truth values, which are not the same. -/
theorem errorArrays_compatibility :
    let requests : List Request := [.array errorId, .array intId, .array boolId]
    initial.KnownElems requests ∧ (serveAll requests).Compatibility ∧ (serveAll requests).same 9 8 = true ∧
      (serveAll requests).same 8 10 = true ∧ (serveAll requests).same 9 10 = false :=
  have hknown : initial.KnownElems [.array errorId, .array intId, .array boolId] := by decide +kernel
  ⟨hknown, serveAll_compatibility _ hknown, by decide +kernel⟩

/-- Two arrays, each with the other as its element, are never found to be the same or different. -/
theorem circle_not_compared : ¬ ∀ requests : List Request, (serveAll requests).Compatibility := by
  intro h
  let s := serveAll [.array 9, .array 8]
  have height : s.get? 8 = some { kind := .array, elem := 9 } := by decide +kernel
  have hnine : s.get? 9 = some { kind := .array, elem := 8 } := by decide +kernel
  have hendless : ∀ {id k : Nat}, s.HasDepth id k → id ≠ 8 ∧ id ≠ 9 := by
    intro id k hdepth
    induction hdepth with
    | base hbase =>
      refine ⟨?_, ?_⟩ <;> rintro rfl
      · exact hbase _ height rfl
      · exact hbase _ hnine rfl
    | array hget _ _ ih =>
      refine ⟨?_, ?_⟩ <;> rintro rfl
      · cases height.symm.trans hget
        exact ih.2 rfl
      · cases hnine.symm.trans hget
        exact ih.1 rfl
  have hcompared : s.Compared 8 9 (s.same 8 9) := ((h [.array 9, .array 8]).compared 8 9 _).mpr rfl
  rcases hcompared.ends (tidy_serveAll _) with heq | ⟨k, hk⟩ | ⟨k, hk⟩
  · cases heq
  · exact (hendless hk).1 rfl
  · exact (hendless hk).2 rfl

end TypeStore

end DeclCheck
