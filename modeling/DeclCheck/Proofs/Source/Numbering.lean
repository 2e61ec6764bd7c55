import DeclCheck.Proofs.Text.NormalForm
import DeclCheck.Source.NameTable
import Mathlib.Data.List.Dedup

/-!
# The numbers of names

A name table gives each text a number when it is first asked for it, the next one that is free, and keeps it. Two
texts have one number only if they are the same text, and identifiers if they have the same normal form. A table of
this kind may be kept as two: the texts by number and the numbers by text. As long as the numbers are words, each
of the two undoes the other, and both answer as the one table does.
-/
namespace DeclCheck

namespace NameTable

/-! ## One request -/

theorem get?_of_find? {names : NameTable} {t : Text} {i : NameId} (h : names.find? t = some i) :
    names.get? i = some t := by
  obtain ⟨hlt, heq, _⟩ := Array.findIdx?_eq_some_iff_getElem.mp h
  rw [get?, Array.getElem?_eq_getElem hlt, eq_of_beq heq]

/-- A text is found in the table, or it is put behind those that are there. -/
theorem intern_cases (names : NameTable) (t : Text) :
    (∃ i : NameId, names.intern t = (names, i) ∧ names.get? i = some t) ∨
      names.intern t = (⟨names.texts.push t⟩, names.size) ∧ t ∉ names.texts := by
  unfold intern
  cases hfind : names.find? t with
  | some i => exact .inl ⟨i, rfl, get?_of_find? hfind⟩
  | none =>
    refine .inr ⟨rfl, fun hmem => ?_⟩
    have hne := Array.findIdx?_eq_none_iff.mp hfind t hmem
    simp at hne

theorem get?_intern (names : NameTable) (t : Text) :
    (names.intern t).1.get? (names.intern t).2 = some t := by
  rcases names.intern_cases t with ⟨i, hrun, hget⟩ | ⟨hrun, _⟩
  · rw [hrun]
    exact hget
  · rw [hrun]
    exact Array.getElem?_push_size

theorem get_intern (names : NameTable) (t : Text) :
    (names.intern t).1.get (names.intern t).2 = t := by
  rw [get, get?_intern, Option.getD_some]

theorem find?_intern (names : NameTable) (t : Text) :
    (names.intern t).1.find? t = some (names.intern t).2 := by
  unfold intern
  cases hfind : names.find? t with
  | some i => exact hfind
  | none =>
    have hnot := Array.findIdx?_eq_none_iff.mp hfind
    refine Array.findIdx?_eq_some_iff_getElem.mpr ⟨by rw [Array.size_push]; exact Nat.lt_succ_self _, ?_, ?_⟩
    · rw [Array.getElem_push_eq]
      exact beq_self_eq_true t
    · intro j hj
      rw [Array.getElem_push_lt hj, Bool.not_eq_true]
      exact hnot _ (Array.getElem_mem hj)

/-- A text that is looked up after another one has its number exactly if it is the same text. -/
theorem intern_intern_iff (names : NameTable) (s t : Text) :
    (names.intern s).1.intern t = names.intern s ↔ t = s := by
  constructor
  · intro h
    have ht := (names.intern s).1.get_intern t
    rw [h, names.get_intern s] at ht
    exact ht.symm
  · rintro rfl
    have hfind := names.find?_intern t
    unfold intern at hfind ⊢
    rw [hfind]

theorem get?_intern_of_get? (names : NameTable) (t : Text) {i : NameId} {text : Text}
    (h : names.get? i = some text) : (names.intern t).1.get? i = some text := by
  rcases names.intern_cases t with ⟨j, hrun, _⟩ | ⟨hrun, _⟩
  · rwa [hrun]
  · have hlt : i < names.texts.size := (Array.getElem?_eq_some_iff.mp h).1
    rw [hrun, get?, Array.getElem?_push_lt hlt, ← Array.getElem?_eq_getElem hlt]
    exact h

theorem mem_texts_intern {names : NameTable} {t u : Text} :
    u ∈ (names.intern t).1.texts ↔ u ∈ names.texts ∨ u = t := by
  rcases names.intern_cases t with ⟨i, hrun, hget⟩ | ⟨hrun, _⟩
  · rw [hrun]
    refine ⟨.inl, fun h => h.elim id ?_⟩
    rintro rfl
    exact Array.mem_of_getElem? hget
  · rw [hrun]
    exact Array.mem_push

theorem size_le_intern (names : NameTable) (t : Text) : names.size ≤ (names.intern t).1.size := by
  rcases names.intern_cases t with ⟨i, hrun, _⟩ | ⟨hrun, _⟩
  · rw [hrun]
  · rw [hrun, size, size, Array.size_push]
    exact Nat.le_succ _

/-- The numbers of a table are words as long as there are not more texts than words. -/
theorem toNat_toUInt32_of_get? {names : NameTable} (hroom : names.size ≤ UInt32.size) {i : NameId} {t : Text}
    (h : names.get? i = some t) : i.toUInt32.toNat = i := by
  have hlt : i < names.size := (Array.getElem?_eq_some_iff.mp h).1
  exact UInt32.toNat_ofNat_of_lt' (Nat.lt_of_lt_of_le hlt hroom)

/-- No text has two numbers. -/
def Distinct (names : NameTable) : Prop := names.texts.toList.Nodup

theorem Distinct.intern {names : NameTable} (h : names.Distinct) (t : Text) : (names.intern t).1.Distinct := by
  rcases names.intern_cases t with ⟨i, hrun, _⟩ | ⟨hrun, hnot⟩
  · rwa [hrun]
  · rw [hrun, Distinct, Array.toList_push, ← List.concat_eq_append]
    exact List.Nodup.concat (fun hmem => hnot (Array.mem_def.mpr hmem)) h

theorem Distinct.find?_eq_some_iff {names : NameTable} (h : names.Distinct) {t : Text} {i : NameId} :
    names.find? t = some i ↔ names.get? i = some t := by
  refine ⟨get?_of_find?, fun hget => ?_⟩
  obtain ⟨hlt, heq⟩ := Array.getElem?_eq_some_iff.mp hget
  refine Array.findIdx?_eq_some_iff_getElem.mpr ⟨hlt, by rw [heq]; exact beq_self_eq_true t, fun j hj hbeq => ?_⟩
  -- An earlier index of the same text would be a second one.
  have hsame : names.texts.toList[j]? = names.texts.toList[i]? := by
    rw [Array.getElem?_toList, Array.getElem?_toList, Array.getElem?_eq_getElem (Nat.lt_trans hj hlt),
      eq_of_beq hbeq]
    exact hget.symm
  exact Nat.ne_of_lt hj ((List.getElem?_inj (by simpa using Nat.lt_trans hj hlt) h).mp hsame)

/-! ## Requests -/

/-- What a name table can be asked to number: a text, an identifier, or bytes that are taken for a text. -/
inductive Request where
  | text (t : Text)
  | ident (t : Text)
  | bytes (t : Text)
  deriving DecidableEq, Repr

/-- The text of a request. -/
def Request.given : Request → Text
  | text t | ident t | bytes t => t

section Requests

variable [Text.NormalForm]

/-- The text that is numbered: of an identifier the normal form. -/
def Request.stored : Request → Text
  | text t | bytes t => t
  | ident t => t.normal

theorem Request.stored_eq_nil_iff [Text.LawfulNormalForm] (q : Request) : q.stored = [] ↔ q.given = [] := by
  cases q with
  | text t => exact Iff.rfl
  | ident t => exact Text.normal_eq_nil_iff
  | bytes t => exact Iff.rfl

/-- The table after a request and the number that it gives. -/
def serve (names : NameTable) : Request → NameTable × NameId
  | .text t | .bytes t => names.intern t
  | .ident t => names.internIdent t

theorem serve_eq (names : NameTable) (q : Request) : names.serve q = names.intern q.stored := by
  cases q <;> rfl

/-- The table after some requests in order and the numbers that it gives. -/
def serveAll (names : NameTable) : List Request → NameTable × List NameId
  | [] => (names, [])
  | q :: rest =>
    (((names.serve q).1.serveAll rest).1, (names.serve q).2 :: ((names.serve q).1.serveAll rest).2)

variable (names : NameTable) (qs : List Request)

theorem serveAll_append (rs : List Request) : names.serveAll (qs ++ rs) =
    (((names.serveAll qs).1.serveAll rs).1, (names.serveAll qs).2 ++ ((names.serveAll qs).1.serveAll rs).2) := by
  induction qs generalizing names with
  | nil => rfl
  | cons q qs ih => rw [List.cons_append, serveAll, ih, serveAll, List.cons_append]

theorem size_le_serveAll : names.size ≤ (names.serveAll qs).1.size := by
  induction qs generalizing names with
  | nil => exact Nat.le_refl _
  | cons q qs ih =>
    refine Nat.le_trans ?_ (ih _)
    rw [serve_eq]
    exact names.size_le_intern _

theorem mem_texts_serveAll {u : Text} :
    u ∈ (names.serveAll qs).1.texts ↔ u ∈ names.texts ∨ u ∈ qs.map Request.stored := by
  induction qs generalizing names with
  | nil => simp [serveAll]
  | cons q qs ih => rw [serveAll, ih, serve_eq, mem_texts_intern, List.map_cons, List.mem_cons, or_assoc]

variable {names}

theorem get?_serveAll_of_get? {i : NameId} {t : Text} (h : names.get? i = some t) :
    (names.serveAll qs).1.get? i = some t := by
  induction qs generalizing names with
  | nil => exact h
  | cons q qs ih =>
    apply ih
    rw [serve_eq]
    exact names.get?_intern_of_get? _ h

theorem Distinct.serveAll (h : names.Distinct) : (names.serveAll qs).1.Distinct := by
  induction qs generalizing names with
  | nil => exact h
  | cons q qs ih =>
    apply ih
    rw [serve_eq]
    exact h.intern _

variable (names) in
/-- The numbers that are given are those of the texts, and stay so until the end. -/
theorem forall₂_serveAll :
    List.Forall₂ (fun q i => (names.serveAll qs).1.get? i = some q.stored) qs (names.serveAll qs).2 := by
  induction qs generalizing names with
  | nil => exact .nil
  | cons q qs ih =>
    refine .cons (get?_serveAll_of_get? qs ?_) (ih _)
    rw [serve_eq]
    exact names.get?_intern q.stored

omit [Text.NormalForm] in
theorem distinct_empty : empty.Distinct := List.nodup_singleton _

theorem mem_texts_serveAll_empty {u : Text} :
    u ∈ (empty.serveAll qs).1.texts ↔ u ∈ [] :: qs.map Request.stored := by
  rw [mem_texts_serveAll, List.mem_cons, empty]
  simp

/-- There are as many numbers as different texts, the empty one included. -/
theorem size_serveAll : (empty.serveAll qs).1.size = ([] :: qs.map Request.stored).dedup.length := by
  have hperm : (empty.serveAll qs).1.texts.toList.Perm ([] :: qs.map Request.stored).dedup := by
    refine (List.perm_ext_iff_of_nodup (distinct_empty.serveAll qs) (List.nodup_dedup _)).mpr fun u => ?_
    rw [← Array.mem_def, mem_texts_serveAll_empty, List.mem_dedup]
  rw [size, ← Array.length_toList, hperm.length_eq]

/-- No more numbers are given than there are words if there are fewer different texts than words. -/
theorem size_serveAll_le (h : (qs.map Request.stored).dedup.length < UInt32.size) :
    (empty.serveAll qs).1.size ≤ UInt32.size := by
  rw [size_serveAll, List.dedup_cons]
  split
  · exact h.le
  · exact h

end Requests

end NameTable

/-! ## Two tables -/

/-- A name table that is kept as two: the texts by number, and by text the numbers, which are words. -/
structure Register where
  texts : Array Text := #[[]]
  numbers : List (Text × UInt32) := [([], 0)]
  deriving Repr

namespace Register

open NameTable (Request)

def lookup? (r : Register) (i : UInt32) : Option Text := r.texts[i.toNat]?

def intern (r : Register) (t : Text) : Register × UInt32 :=
  match r.numbers.lookup t with
  | some i => (r, i)
  | none => (⟨r.texts.push t, (t, r.texts.size.toUInt32) :: r.numbers⟩, r.texts.size.toUInt32)

/-- The number of an identifier. A text that passes the test for normal texts is not brought into normal form. -/
def internIdent [Text.NormalForm] (isNormal : Text → Bool) (r : Register) (t : Text) : Register × UInt32 :=
  r.intern (if isNormal t then t else t.normal)

def serve [Text.NormalForm] (isNormal : Text → Bool) (r : Register) : Request → Register × UInt32
  | .text t | .bytes t => r.intern t
  | .ident t => r.internIdent isNormal t

def serveAll [Text.NormalForm] (isNormal : Text → Bool) (r : Register) : List Request → Register × List UInt32
  | [] => (r, [])
  | q :: rest =>
    ((serveAll isNormal (r.serve isNormal q).1 rest).1,
      (r.serve isNormal q).2 :: (serveAll isNormal (r.serve isNormal q).1 rest).2)

/-- The two tables hold what a name table holds, which gives no text two numbers. -/
structure Keeps (r : Register) (names : NameTable) : Prop where
  texts_eq : r.texts = names.texts
  distinct : names.Distinct
  lookup_iff : ∀ (t : Text) (i : UInt32), r.numbers.lookup t = some i ↔ names.get? i.toNat = some t

theorem lookup_cons_iff {ps : List (Text × UInt32)} {t : Text} (hnone : ps.lookup t = none) {u : Text} {n i : UInt32} :
    ((t, n) :: ps).lookup u = some i ↔ ps.lookup u = some i ∨ n = i ∧ u = t := by
  rw [List.lookup_cons]
  by_cases hu : u = t
  · subst hu
    simp [hnone]
  · simp only [beq_eq_false_iff_ne.mpr hu, hu, and_false, or_false]

theorem getElem?_push_iff {texts : Array Text} {t u : Text} {i : Nat} :
    (texts.push t)[i]? = some u ↔ texts[i]? = some u ∨ i = texts.size ∧ u = t := by
  rw [Array.getElem?_push]
  by_cases hi : i = texts.size
  · simp [hi, eq_comm]
  · simp [hi]

theorem keeps_empty : Keeps {} .empty := by
  refine ⟨rfl, NameTable.distinct_empty, fun t i => ?_⟩
  have hzero : i.toNat = 0 ↔ 0 = i := by rw [← UInt32.toNat_inj, eq_comm, UInt32.toNat_zero]
  have hget : NameTable.empty.get? i.toNat = some t ↔ i.toNat = 0 ∧ t = [] := by
    show (#[].push [] : Array Text)[i.toNat]? = some t ↔ _
    rw [getElem?_push_iff]
    simp
  rw [hget, hzero, lookup_cons_iff rfl]
  simp

section Steps

variable {r : Register} {names : NameTable} (h : r.Keeps names)
include h

theorem Keeps.intern {t : Text} (hroom : (names.intern t).1.size ≤ UInt32.size) :
    (r.intern t).1.Keeps (names.intern t).1 ∧ (r.intern t).2.toNat = (names.intern t).2 := by
  rcases names.intern_cases t with ⟨i, hrun, hget⟩ | ⟨hrun, hnot⟩
  · rw [hrun] at hroom ⊢
    have hword := NameTable.toNat_toUInt32_of_get? hroom hget
    have hfound : r.numbers.lookup t = some i.toUInt32 := by rwa [h.lookup_iff, hword]
    simp only [Register.intern, hfound]
    exact ⟨h, hword⟩
  · rw [hrun] at hroom ⊢
    rw [NameTable.size, Array.size_push] at hroom
    have hword : names.texts.size.toUInt32.toNat = names.texts.size := UInt32.toNat_ofNat_of_lt' hroom
    have hnone : r.numbers.lookup t = none := by
      rw [Option.eq_none_iff_forall_ne_some]
      intro i hi
      exact hnot (Array.mem_of_getElem? ((h.lookup_iff t i).mp hi))
    simp only [Register.intern, hnone, h.texts_eq]
    refine ⟨⟨rfl, ?_, fun u i => ?_⟩, hword⟩
    · have hdistinct := h.distinct.intern t
      rwa [hrun] at hdistinct
    · -- The new number is that of the new text, and the old ones stay.
      have hindex : i.toNat = names.texts.size ↔ names.texts.size.toUInt32 = i := by
        rw [← UInt32.toNat_inj, hword, eq_comm]
      rw [lookup_cons_iff hnone, h.lookup_iff, ← hindex]
      exact getElem?_push_iff.symm

variable [Text.NormalForm] {isNormal : Text → Bool} (hnormal : ∀ t, isNormal t = true ↔ t.normal = t)
include hnormal

theorem Keeps.serve {q : Request} (hroom : (names.serve q).1.size ≤ UInt32.size) :
    (r.serve isNormal q).1.Keeps (names.serve q).1 ∧ (r.serve isNormal q).2.toNat = (names.serve q).2 := by
  have heq : r.serve isNormal q = r.intern q.stored := by
    cases q with
    | text t => rfl
    | bytes t => rfl
    | ident t =>
      show r.intern (if isNormal t then t else t.normal) = r.intern t.normal
      split
      · next hpass => rw [(hnormal t).mp hpass]
      · rfl
  rw [NameTable.serve_eq] at hroom ⊢
  rw [heq]
  exact h.intern hroom

theorem Keeps.serveAll {qs : List Request} (hroom : (names.serveAll qs).1.size ≤ UInt32.size) :
    (r.serveAll isNormal qs).1.Keeps (names.serveAll qs).1 ∧
      (r.serveAll isNormal qs).2.map UInt32.toNat = (names.serveAll qs).2 := by
  induction qs generalizing r names with
  | nil => exact ⟨h, rfl⟩
  | cons q qs ih =>
    have hfirst := h.serve hnormal (Nat.le_trans (NameTable.size_le_serveAll _ qs) hroom)
    obtain ⟨hkeeps, hids⟩ := ih hfirst.1 hroom
    exact ⟨hkeeps, by rw [serveAll, List.map_cons, hfirst.2, hids]; rfl⟩

end Steps

/-- What a register is like that has been asked for the numbers `ids`: the two tables undo each other, and number
exactly the texts that it has been asked for and the empty one, from zero on. -/
structure Numbers [Text.NormalForm] (r : Register) (qs : List Request) (ids : List UInt32) : Prop where
  inverse : ∀ (t : Text) (i : UInt32), r.numbers.lookup t = some i ↔ r.lookup? i = some t
  known : ∀ t : Text, (∃ i, r.numbers.lookup t = some i) ↔ t ∈ [] :: qs.map Request.stored
  dense : ∀ i : UInt32, (∃ t, r.numbers.lookup t = some i) ↔
    i.toNat < ([] :: qs.map Request.stored).dedup.length
  size_eq : r.texts.size = ([] :: qs.map Request.stored).dedup.length
  given : List.Forall₂ (fun q i => r.lookup? i = some q.stored) qs ids
  same_iff : ∀ q i q' i', (q, i) ∈ qs.zip ids → (q', i') ∈ qs.zip ids → (i = i' ↔ q.stored = q'.stored)
  zero : ∀ t : Text, r.numbers.lookup t = some 0 ↔ t = []
  zero_iff : ∀ q i, (q, i) ∈ qs.zip ids → (i = 0 ↔ q.given = [])

section Kept

variable {r : Register} {names : NameTable} (h : r.Keeps names)
include h

theorem Keeps.lookup?_eq (i : UInt32) : r.lookup? i = names.get? i.toNat := by
  rw [lookup?, h.texts_eq, NameTable.get?]

theorem Keeps.inverse (t : Text) (i : UInt32) : r.numbers.lookup t = some i ↔ r.lookup? i = some t := by
  rw [h.lookup_iff, h.lookup?_eq]

theorem Keeps.find?_eq (hroom : names.size ≤ UInt32.size) (t : Text) :
    names.find? t = (r.numbers.lookup t).map UInt32.toNat := by
  ext i
  rw [h.distinct.find?_eq_some_iff, Option.map_eq_some_iff]
  constructor
  · intro hget
    have hword := NameTable.toNat_toUInt32_of_get? hroom hget
    exact ⟨i.toUInt32, (h.lookup_iff t _).mpr (by rwa [hword]), hword⟩
  · rintro ⟨w, hw, rfl⟩
    exact (h.lookup_iff t w).mp hw

theorem Keeps.exists_lookup_iff (hroom : names.size ≤ UInt32.size) (t : Text) :
    (∃ i, r.numbers.lookup t = some i) ↔ t ∈ names.texts := by
  constructor
  · rintro ⟨i, hi⟩
    exact Array.mem_of_getElem? ((h.lookup_iff t i).mp hi)
  · intro ht
    obtain ⟨i, hi⟩ := Array.getElem?_of_mem ht
    have hword := NameTable.toNat_toUInt32_of_get? hroom hi
    exact ⟨i.toUInt32, (h.lookup_iff t _).mpr (by rwa [hword])⟩

theorem Keeps.exists_lookup_eq_iff (i : UInt32) :
    (∃ t, r.numbers.lookup t = some i) ↔ i.toNat < r.texts.size := by
  constructor
  · rintro ⟨t, ht⟩
    exact (Array.getElem?_eq_some_iff.mp ((h.inverse t i).mp ht)).1
  · intro hlt
    exact ⟨r.texts[i.toNat], (h.inverse _ i).mpr (Array.getElem?_eq_getElem hlt)⟩

end Kept

theorem Keeps.numbers [Text.NormalForm] [Text.LawfulNormalForm] {r : Register} {qs : List Request} {ids : List UInt32}
    (h : r.Keeps (NameTable.empty.serveAll qs).1) (hids : ids.map UInt32.toNat = (NameTable.empty.serveAll qs).2)
    (hroom : (NameTable.empty.serveAll qs).1.size ≤ UInt32.size) : r.Numbers qs ids := by
  have hsize : r.texts.size = ([] :: qs.map Request.stored).dedup.length := by
    rw [h.texts_eq]
    exact NameTable.size_serveAll qs
  have hgiven : List.Forall₂ (fun q i => r.lookup? i = some q.stored) qs ids := by
    have hall := NameTable.empty.forall₂_serveAll qs
    rw [← hids, List.forall₂_map_right_iff] at hall
    simpa only [h.lookup?_eq] using hall
  have hpair : ∀ {q : Request} {i : UInt32}, (q, i) ∈ qs.zip ids → r.numbers.lookup q.stored = some i := by
    intro q i hmem
    exact (h.inverse _ _).mpr ((List.forall₂_iff_zip.mp hgiven).2 hmem)
  have hzero : ∀ t : Text, r.numbers.lookup t = some 0 ↔ t = [] := by
    intro t
    have hfirst : r.lookup? 0 = some [] := by
      rw [h.lookup?_eq]
      exact NameTable.get?_serveAll_of_get? qs rfl
    rw [h.inverse, hfirst, Option.some.injEq, eq_comm]
  refine ⟨h.inverse, fun t => ?_, fun i => ?_, hsize, hgiven, fun q i q' i' hq hq' => ?_, hzero, fun q i hq => ?_⟩
  · rw [h.exists_lookup_iff hroom, NameTable.mem_texts_serveAll_empty]
  · rw [h.exists_lookup_eq_iff, hsize]
  · have hi := hpair hq
    have hi' := hpair hq'
    constructor
    · rintro rfl
      have hlook := ((h.inverse _ _).mp hi).symm.trans ((h.inverse _ _).mp hi')
      exact Option.some.inj hlook
    · intro hstored
      rw [hstored, hi'] at hi
      exact (Option.some.inj hi).symm
  · rw [← q.stored_eq_nil_iff, ← hzero, hpair hq, Option.some.injEq]

/-- At every point of a run of requests for fewer different texts than there are words, the numbers and the texts are in
bijection, and what is asked for later changes none of them. Requests have one number exactly if they are for the same
text, identifiers if they have the same normal form, and the number zero is that of the empty text alone. A name
table gives the same numbers and looks them up to the same texts. The test for normal texts is taken to be exact. -/
theorem numbers_texts_bijective [Text.NormalForm] [Text.LawfulNormalForm] (isNormal : Text → Bool)
    (hnormal : ∀ t, isNormal t = true ↔ t.normal = t) (before after : List Request)
    (hfew : ((before ++ after).map Request.stored).dedup.length < UInt32.size) :
    let now := Register.serveAll isNormal {} before
    let later := now.1.serveAll isNormal after
    let names := NameTable.empty.serveAll before
    now.1.Numbers before now.2 ∧
      (∀ (i : UInt32) (t : Text), now.1.lookup? i = some t → later.1.lookup? i = some t) ∧
      now.1.texts = names.1.texts ∧ now.2.map UInt32.toNat = names.2 ∧
      ∀ t, names.1.find? t = (now.1.numbers.lookup t).map UInt32.toNat := by
  intro now later names
  have hlater : (names.1.serveAll after).1.size ≤ UInt32.size := by
    have hsize := NameTable.size_serveAll_le (before ++ after) hfew
    rwa [NameTable.serveAll_append] at hsize
  have hroom : names.1.size ≤ UInt32.size := (NameTable.size_le_serveAll _ after).trans hlater
  obtain ⟨hnow, hids⟩ := keeps_empty.serveAll hnormal hroom
  obtain ⟨hkept, _⟩ := hnow.serveAll hnormal hlater
  refine ⟨hnow.numbers hids hroom, fun i t hlook => ?_, hnow.texts_eq, hids, hnow.find?_eq hroom⟩
  rw [hkept.lookup?_eq]
  rw [hnow.lookup?_eq] at hlook
  exact NameTable.get?_serveAll_of_get? after hlook

/-- An accented letter has one number as an identifier in both spellings, and as a text two. -/
theorem accent_numbered :
    let isNormal := fun t : Text => decide (t.normal = t)
    let qs : List Request := [.ident "e\u0301", .text "\u00E9", .text [], .bytes "e\u0301"]
    (qs.map Request.stored).dedup.length < UInt32.size ∧
      (Register.serveAll isNormal {} qs).2 = [1, 1, 0, 2] ∧
      (Register.serveAll isNormal {} qs).1.Numbers qs [1, 1, 0, 2] := by
  intro isNormal qs
  have hfew : ((qs ++ []).map Request.stored).dedup.length < UInt32.size := by decide +kernel
  have hids : (Register.serveAll isNormal {} qs).2 = [1, 1, 0, 2] := by decide +kernel
  obtain ⟨hnumbers, _⟩ := numbers_texts_bijective isNormal (fun t => decide_eq_true_iff) qs [] hfew
  rw [hids] at hnumbers
  exact ⟨hfew, hids, hnumbers⟩

end Register

end DeclCheck
