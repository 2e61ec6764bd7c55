import DeclCheck.Types
import Mathlib.Data.List.Forall2
import Mathlib.Tactic.IntervalCases

/-!
# Shapes of types

A number in a type store stands for a tree: a built-in type, a name, or an array of such a tree.
Numbers grow with the arrays that are put around an element, and no two numbers stand for the same
tree. So the comparison of numbers is the comparison of trees, and a growing store keeps it.
-/
namespace DeclCheck

/-- A type as a tree. -/
inductive Shape where
  | primitive (kind : TypeKind)
  | named (name : NameId)
  | array (elem : Shape)
  deriving DecidableEq, Repr

namespace Shape

/-- Is it the error type itself? -/
def isError : Shape → Bool
  | primitive k => k == .error
  | _ => false

/-- The comparison of types: the error type agrees with every type, also inside arrays. -/
def agrees (a b : Shape) : Bool :=
  a.isError || b.isError ||
    match a, b with
    | primitive k, primitive l => k == l
    | named m, named n => m == n
    | array a, array b => a.agrees b
    | _, _ => false

/-- Is there no error type in it? -/
def errorFree : Shape → Bool
  | primitive k => k != .error
  | named _ => true
  | array a => a.errorFree

theorem agrees_refl (a : Shape) : a.agrees a = true := by
  induction a with
  | primitive k => simp [agrees]
  | named n => simp [agrees]
  | array a ih => simp [agrees, ih]

theorem isError_eq_false_of_errorFree {a : Shape} (h : a.errorFree = true) :
    a.isError = false := by
  cases a with
  | primitive k => simpa [errorFree, isError] using h
  | named n => rfl
  | array a => rfl

/-- Away from the error type, types agree only if they are the same. -/
theorem agrees_iff_eq {a b : Shape} (ha : a.errorFree = true) (hb : b.errorFree = true) :
    a.agrees b = true ↔ a = b := by
  induction a generalizing b with
  | primitive k =>
    have he := isError_eq_false_of_errorFree ha
    have hf := isError_eq_false_of_errorFree hb
    cases b <;> simp_all [agrees]
  | named n =>
    have hf := isError_eq_false_of_errorFree hb
    cases b <;> simp_all [agrees, isError]
  | array a ih =>
    have hf := isError_eq_false_of_errorFree hb
    cases b with
    | primitive k => simp_all [agrees, isError]
    | named n => simp [agrees, isError]
    | array b =>
      simp only [agrees, isError, Bool.false_or, array.injEq]
      exact ih ha hb

/-- A type in words. -/
def label (names : NameTable) : Shape → Text
  | primitive k => k.label
  | named n => names.get n
  | array a => a.label names ++ "[]"

end Shape

/-- The signature of a function with its types as trees. -/
structure FunctionShape where
  name : NameId
  result : Shape
  params : List Shape
  deriving DecidableEq, Repr

namespace FunctionShape

/-- Do the types of two lists agree pairwise? -/
def pairwise : List Shape → List Shape → Bool
  | [], [] => true
  | a :: as, b :: bs => a.agrees b && pairwise as bs
  | _, _ => false

/-- Do two signatures agree in name, result and parameters? -/
def agrees (f g : FunctionShape) : Bool :=
  f.name == g.name && f.result.agrees g.result && pairwise f.params g.params

/-- Is there no error type in the signature? -/
def errorFree (f : FunctionShape) : Bool := f.result.errorFree && f.params.all Shape.errorFree

/-- A signature as a function is declared. -/
def label (names : NameTable) (f : FunctionShape) : Text :=
  f.result.label names ++ " " ++ names.get f.name ++ "(" ++
    Text.join ", " (f.params.map (Shape.label names)) ++ ")"

theorem pairwise_refl (as : List Shape) : pairwise as as = true := by
  induction as with
  | nil => rfl
  | cons a as ih => simp [pairwise, Shape.agrees_refl, ih]

theorem agrees_refl (f : FunctionShape) : f.agrees f = true := by
  simp [agrees, Shape.agrees_refl, pairwise_refl]

theorem pairwise_iff_eq {as bs : List Shape} (ha : as.all Shape.errorFree = true)
    (hb : bs.all Shape.errorFree = true) : pairwise as bs = true ↔ as = bs := by
  induction as generalizing bs with
  | nil => cases bs <;> simp [pairwise]
  | cons a as ih =>
    cases bs with
    | nil => simp [pairwise]
    | cons b bs =>
      simp only [List.all_cons, Bool.and_eq_true] at ha hb
      simp only [pairwise, Bool.and_eq_true, Shape.agrees_iff_eq ha.1 hb.1, ih ha.2 hb.2,
        List.cons.injEq]

/-- Away from the error type, signatures agree only if they are the same. -/
theorem agrees_iff_eq {f g : FunctionShape} (hf : f.errorFree = true) (hg : g.errorFree = true) :
    f.agrees g = true ↔ f = g := by
  obtain ⟨m, r, as⟩ := f
  obtain ⟨n, q, bs⟩ := g
  simp only [errorFree, Bool.and_eq_true] at hf hg
  simp only [agrees, Bool.and_eq_true, beq_iff_eq, Shape.agrees_iff_eq hf.1 hg.1,
    pairwise_iff_eq hf.2 hg.2, mk.injEq, and_assoc]

end FunctionShape

namespace TypeStore

/-- A store as it grows from the built-in types by named types and arrays of types that are in
it. -/
structure Sound (s : TypeStore) : Prop where
  builtin : ∀ i : Nat, i < 8 → s.types[i]? = initial.types[i]?
  later : ∀ (i : Nat) (t : Ty), 8 ≤ i → s.types[i]? = some t →
    (∃ name, t = { kind := .named, name }) ∨
      ∃ elem, t = { kind := .array, elem } ∧ 0 < elem ∧ elem < i
  nodup : s.types.toList.Nodup

/-- The tree that a number of the store stands for. -/
inductive Means (s : TypeStore) : Nat → Shape → Prop
  | primitive {id : Nat} {k : TypeKind} (h : s.get? id = some { kind := k }) (hk : k.isPrimitive = true) :
      Means s id (.primitive k)
  | named {id : Nat} {name : NameId} (h : s.get? id = some { kind := .named, name }) :
      Means s id (.named name)
  | array {id elem : Nat} {a : Shape} (h : s.get? id = some { kind := .array, elem }) (ha : Means s elem a) :
      Means s id (.array a)

/-- A later store knows all numbers of an earlier one. -/
def Grows (s t : TypeStore) : Prop := ∀ id ty, s.get? id = some ty → t.get? id = some ty

theorem Grows.refl (s : TypeStore) : s.Grows s := fun _ _ h => h

theorem Grows.trans {s t u : TypeStore} (h : s.Grows t) (k : t.Grows u) : s.Grows u :=
  fun id ty hs => k id ty (h id ty hs)

theorem Means.grows {s t : TypeStore} (hg : s.Grows t) {id : TypeId} {a : Shape}
    (h : s.Means id a) : t.Means id a := by
  induction h with
  | primitive h hk => exact .primitive (hg _ _ h) hk
  | named h => exact .named (hg _ _ h)
  | array h _ ih => exact .array (hg _ _ h) ih

theorem get?_eq_some {s : TypeStore} {id : TypeId} {t : Ty} (h : s.get? id = some t) :
    id ≠ 0 ∧ s.types[id]? = some t := by
  unfold get? at h
  split at h
  · cases h
  · next hz => exact ⟨hz, h⟩

theorem Means.pos {s : TypeStore} {id : Nat} {a : Shape} (h : s.Means id a) :
    0 < id ∧ id < s.types.size := by
  have key : ∀ t, s.get? id = some t → 0 < id ∧ id < s.types.size := by
    intro t ht
    obtain ⟨hz, ht⟩ := get?_eq_some ht
    exact ⟨Nat.pos_of_ne_zero hz, (Array.getElem?_eq_some_iff.mp ht).1⟩
  cases h with
  | primitive h _ => exact key _ h
  | named h => exact key _ h
  | array h _ => exact key _ h

/-- A number stands for one tree. -/
theorem Means.unique {s : TypeStore} {id : TypeId} {a b : Shape} (ha : s.Means id a)
    (hb : s.Means id b) : a = b := by
  induction ha generalizing b with
  | primitive h hk =>
    cases hb with
    | primitive h' _ =>
      rw [h] at h'
      cases h'
      rfl
    | named h' =>
      rw [h] at h'
      cases h'
      cases hk
    | array h' _ =>
      rw [h] at h'
      cases h'
      cases hk
  | named h =>
    cases hb with
    | primitive h' hk =>
      rw [h] at h'
      cases h'
      cases hk
    | named h' =>
      rw [h] at h'
      cases h'
      rfl
    | array h' _ =>
      rw [h] at h'
      cases h'
  | array h _ ih =>
    cases hb with
    | primitive h' hk =>
      rw [h] at h'
      cases h'
      cases hk
    | named h' =>
      rw [h] at h'
      cases h'
    | array h' hb =>
      rw [h] at h'
      cases h'
      rw [ih hb]

/-- A type is found in the store, or it is put behind those that are there. -/
theorem intern_cases (s : TypeStore) {t : Ty} (ht : t.kind ≠ .invalid) :
    (∃ i : Nat, s.intern t = (s, i) ∧ s.types[i]? = some t) ∨
      s.intern t = (⟨s.types.push t⟩, s.types.size) ∧ t ∉ s.types := by
  unfold intern
  rw [if_neg ht]
  cases hf : s.types.findIdx? (· == t) with
  | some i =>
    obtain ⟨hlt, hi, _⟩ := Array.findIdx?_eq_some_iff_getElem.mp hf
    exact .inl ⟨i, rfl, by rw [Array.getElem?_eq_getElem hlt, eq_of_beq hi]⟩
  | none =>
    refine .inr ⟨rfl, fun hm => ?_⟩
    have := Array.findIdx?_eq_none_iff.mp hf t hm
    simp at this

theorem nodup_push {types : Array Ty} (h : types.toList.Nodup) {t : Ty} (ht : t ∉ types) :
    (types.push t).toList.Nodup := by
  rw [Array.toList_push]
  refine List.nodup_append.mpr ⟨h, by simp, ?_⟩
  rintro a ha b hb rfl
  rw [List.mem_singleton] at hb
  subst hb
  exact ht (Array.mem_def.mpr ha)

/-- Where no type is listed twice, a type has one number. -/
theorem get?_inj {s : TypeStore} (hs : s.types.toList.Nodup) {i j : TypeId} {t : Ty} (hi : s.get? i = some t)
    (hj : s.get? j = some t) : i = j := by
  have hi := (get?_eq_some hi).2
  have hj := (get?_eq_some hj).2
  rw [← Array.getElem?_toList] at hi hj
  have hlt : i < s.types.toList.length := (List.getElem?_eq_some_iff.mp hi).1
  exact (List.getElem?_inj hlt hs).mp (hi.trans hj.symm)

namespace Sound

variable {s : TypeStore}

theorem get?_unique (hs : s.Sound) {i j : TypeId} {t : Ty} (hi : s.get? i = some t)
    (hj : s.get? j = some t) : i = j := get?_inj hs.nodup hi hj

/-- Only the last numbers are arrays, and their elements come before them. -/
theorem array_elem (hs : s.Sound) {i : Nat} {t : Ty} (ht : s.types[i]? = some t) (hk : t.kind = .array) :
    0 < t.elem ∧ t.elem < i := by
  by_cases hi : i < 8
  · have hbuiltin : ∀ i : Nat, i < 8 → initial.types[i]?.map (·.kind) ≠ some .array := by decide
    rw [hs.builtin i hi] at ht
    have hkind := hbuiltin i hi
    simp [ht, hk] at hkind
  · rcases hs.later i t (Nat.le_of_not_lt hi) ht with ⟨name, rfl⟩ | ⟨elem, rfl, helem⟩
    · cases hk
    · exact helem

theorem elem_lt (hs : s.Sound) {id elem : Nat}
    (h : s.get? id = some { kind := .array, elem }) : elem < id :=
  (hs.array_elem (get?_eq_some h).2 rfl).2

theorem initial : TypeStore.initial.Sound where
  builtin _ _ := rfl
  later i t hi h := by
    have : i < 8 := (Array.getElem?_eq_some_iff.mp h).1
    omega
  nodup := by decide

/-- A built-in type has the number that is set aside for it. -/
theorem means_builtin (hs : s.Sound) {id : Nat} {k : TypeKind} (hi : 0 < id) (hlt : id < 8)
    (h : TypeStore.initial.types[id]? = some { kind := k }) (hk : k.isPrimitive = true) :
    s.Means id (.primitive k) := by
  refine .primitive ?_ hk
  unfold get?
  rw [if_neg (Nat.ne_of_gt hi), hs.builtin id hlt, h]

/-- Interning a named type, or an array of a type that is there, gives a number for it. -/
theorem intern (hs : s.Sound) {t : Ty}
    (ht : (∃ name, t = { kind := .named, name }) ∨
      ∃ elem, t = { kind := .array, elem } ∧ 0 < elem ∧ elem < s.types.size) :
    (s.intern t).1.Sound ∧ s.Grows (s.intern t).1 ∧
      (s.intern t).1.get? (s.intern t).2 = some t := by
  have hkind : t.kind ≠ .invalid := by
    rcases ht with ⟨name, rfl⟩ | ⟨elem, rfl, _⟩ <;> simp
  have hlen : 8 ≤ s.types.size := by
    have h := hs.builtin 7 (by omega)
    have : 7 < s.types.size := (Array.getElem?_eq_some_iff.mp (h.trans rfl)).1
    omega
  rcases s.intern_cases hkind with ⟨i, hrun, hget⟩ | ⟨hrun, hnot⟩
  · rw [hrun]
    have hne : i ≠ 0 := by
      rintro rfl
      rw [hs.builtin 0 (by omega)] at hget
      cases hget
      exact hkind rfl
    refine ⟨hs, Grows.refl s, ?_⟩
    simp [get?, hne, hget]
  · rw [hrun]
    refine ⟨⟨?_, ?_, nodup_push hs.nodup hnot⟩, ?_, ?_⟩
    · intro i hi
      rw [← hs.builtin i hi]
      exact Array.getElem?_push_lt (by omega) |>.trans (Array.getElem?_eq_getElem (by omega)).symm
    · intro i u hi hu
      by_cases hlt : i < s.types.size
      · refine hs.later i u hi ?_
        rw [← hu, Array.getElem?_push_lt hlt, Array.getElem?_eq_getElem hlt]
      · have : i = s.types.size := by
          have := (Array.getElem?_eq_some_iff.mp hu).1
          simp only [Array.size_push] at this
          omega
        subst this
        simp only [Array.getElem?_push_size, Option.some.injEq] at hu
        subst hu
        exact ht
    · intro id ty h
      obtain ⟨hz, h⟩ := get?_eq_some h
      have hlt := (Array.getElem?_eq_some_iff.mp h).1
      unfold get?
      rw [if_neg hz, Array.getElem?_push_lt hlt, ← h, Array.getElem?_eq_getElem hlt]
    · unfold get?
      rw [if_neg (Nat.ne_of_gt (Nat.lt_of_lt_of_le (by decide) hlen))]
      exact Array.getElem?_push_size

end Sound

/-- One step of the comparison of two numbers. -/
theorem sameWithin_succ {s : TypeStore} {i j fuel : Nat} {t u : Ty} (hij : i ≠ j)
    (hi : s.get? i = some t) (hj : s.get? j = some u) :
    s.sameWithin (fuel + 1) i j =
      (t.kind == .error || u.kind == .error || (t.kind == u.kind &&
        match t.kind with
        | .named => t.name == u.name
        | .array => s.sameWithin fuel t.elem u.elem
        | _ => false)) := by
  rw [sameWithin, hi, hj]
  simp only [beq_iff_eq, hij, ↓reduceIte]
  cases t.kind == .error || u.kind == .error with
  | true => simp
  | false =>
    cases ht : t.kind == u.kind with
    | false => simp [bne, ht]
    | true =>
      have hne : (t.kind != u.kind) = false := by rw [bne, ht, Bool.not_true]
      generalize (t.kind != u.kind) = differ at hne
      subst hne
      cases t.kind <;> rfl

/-- The comparison of numbers is the comparison of the trees they stand for. -/
theorem sameWithin_eq_agrees {s : TypeStore} (hs : s.Sound) {i j fuel : Nat} {a b : Shape}
    (ha : s.Means i a) (hb : s.Means j b) (hf : i < fuel) :
    s.sameWithin fuel i j = a.agrees b := by
  obtain ⟨fuel, rfl⟩ : ∃ n, fuel = n + 1 := ⟨fuel - 1, by omega⟩
  by_cases hij : i = j
  · subst hij
    cases ha.unique hb
    simp [sameWithin, Shape.agrees_refl]
  induction ha generalizing j b fuel with
  | @primitive i k h hk =>
    cases hb with
    | @primitive _ l h' _ =>
      have hkl : (k == l) = false :=
        beq_eq_false_iff_ne.mpr fun he => hij (hs.get?_unique h (he ▸ h'))
      rw [sameWithin_succ hij h h']
      simp [Shape.agrees, Shape.isError, hkl]
    | named h' =>
      rw [sameWithin_succ hij h h']
      cases k <;> cases hk <;> rfl
    | array h' _ =>
      rw [sameWithin_succ hij h h']
      cases k <;> cases hk <;> rfl
  | named h =>
    cases hb with
    | @primitive _ l h' hl =>
      rw [sameWithin_succ hij h h']
      cases l <;> cases hl <;> rfl
    | named h' =>
      rw [sameWithin_succ hij h h']
      rfl
    | array h' _ =>
      rw [sameWithin_succ hij h h']
      rfl
  | @array i elem a h ha ih =>
    cases hb with
    | @primitive _ l h' hl =>
      rw [sameWithin_succ hij h h']
      cases l <;> cases hl <;> rfl
    | named h' =>
      rw [sameWithin_succ hij h h']
      rfl
    | @array _ elem' b h' hb =>
      rw [sameWithin_succ hij h h']
      have hlt : elem < i := hs.elem_lt h
      obtain ⟨fuel, rfl⟩ : ∃ n, fuel = n + 1 := ⟨fuel - 1, by omega⟩
      have helem : elem ≠ elem' := by
        rintro rfl
        exact hij (hs.get?_unique h h')
      have hih := ih hb fuel (by omega) helem
      exact hih

theorem same_eq_agrees {s : TypeStore} (hs : s.Sound) {i j : Nat} {a b : Shape}
    (ha : s.Means i a) (hb : s.Means j b) : s.same i j = a.agrees b :=
  sameWithin_eq_agrees hs ha hb (by have := ha.pos; unfold size; omega)

theorem labelWithin_eq {s : TypeStore} (hs : s.Sound) (names : NameTable) {i fuel : Nat}
    {a : Shape} (ha : s.Means i a) (hf : i < fuel) :
    s.labelWithin names fuel i = a.label names := by
  obtain ⟨fuel, rfl⟩ : ∃ n, fuel = n + 1 := ⟨fuel - 1, by omega⟩
  induction ha generalizing fuel with
  | @primitive i k h hk =>
    rw [labelWithin, h]
    cases k <;> cases hk <;> rfl
  | named h =>
    rw [labelWithin, h]
    rfl
  | @array i elem a h ha ih =>
    have hlt := hs.elem_lt h
    obtain ⟨fuel, rfl⟩ : ∃ n, fuel = n + 1 := ⟨fuel - 1, by omega⟩
    rw [labelWithin, h]
    exact congrArg (· ++ Text.ofString "[]") (ih fuel (by omega))

theorem label_eq {s : TypeStore} (hs : s.Sound) (names : NameTable) {i : Nat} {a : Shape}
    (ha : s.Means i a) : s.label names i = a.label names :=
  labelWithin_eq hs names ha (by have := ha.pos; unfold size; omega)

/-- A signature of numbers stands for a signature of trees. -/
structure MeansSignature (s : TypeStore) (sig : Signature) (f : FunctionShape) : Prop where
  name : sig.name = f.name
  result : s.Means sig.result f.result
  params : List.Forall₂ s.Means sig.params f.params

theorem MeansSignature.grows {s t : TypeStore} (hg : s.Grows t) {sig : Signature}
    {f : FunctionShape} (h : s.MeansSignature sig f) : t.MeansSignature sig f :=
  ⟨h.name, h.result.grows hg, h.params.imp fun _ _ ha => ha.grows hg⟩

theorem samePairwise_eq {s : TypeStore} (hs : s.Sound) {is js : List TypeId} {as bs : List Shape}
    (ha : List.Forall₂ s.Means is as) (hb : List.Forall₂ s.Means js bs) :
    s.samePairwise is js = FunctionShape.pairwise as bs := by
  induction ha generalizing js bs with
  | nil => cases hb <;> rfl
  | cons h _ ih =>
    cases hb with
    | nil => rfl
    | cons h' hb => simp only [samePairwise, FunctionShape.pairwise, same_eq_agrees hs h h', ih hb]

/-- The comparison of signatures is that of the trees in them. -/
theorem sameSignature_eq_agrees {s : TypeStore} (hs : s.Sound) {sig other : Signature}
    {f g : FunctionShape} (hf : s.MeansSignature sig f) (hg : s.MeansSignature other g) :
    s.sameSignature sig other = f.agrees g := by
  simp only [sameSignature, FunctionShape.agrees, hf.name, hg.name,
    same_eq_agrees hs hf.result hg.result, samePairwise_eq hs hf.params hg.params]

theorem map_label_eq {s : TypeStore} (hs : s.Sound) (names : NameTable) {is : List TypeId}
    {as : List Shape} (h : List.Forall₂ s.Means is as) :
    is.map (s.label names) = as.map (Shape.label names) := by
  induction h with
  | nil => rfl
  | cons h _ ih => simp only [List.map_cons, label_eq hs names h, ih]

theorem signatureLabel_eq {s : TypeStore} (hs : s.Sound) (names : NameTable) {sig : Signature}
    {f : FunctionShape} (h : s.MeansSignature sig f) :
    s.signatureLabel names sig = f.label names := by
  simp only [signatureLabel, FunctionShape.label, label_eq hs names h.result, h.name,
    map_label_eq hs names h.params]

end TypeStore

end DeclCheck
