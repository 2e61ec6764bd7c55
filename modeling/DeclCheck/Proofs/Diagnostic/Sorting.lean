import DeclCheck.Proofs.Diagnostic.Shown
import Mathlib.Data.Prod.Lex
import Mathlib.Order.OrderDual

/-!
# Sorting and dropping repeats

A bag is sorted by file, start and end, the worse first, then by code, and what has one key stands as it came.
Of the diagnostics with one code at one place the worst that came first is then the first, and it is the one
that is kept. What is left is in order and has no repeats, so doing both again changes nothing.
-/
namespace DeclCheck

/-! ## Stable sorting -/

/-- `ys` is `xs` in the order of the keys, and elements of one key stand as they do in `xs`. -/
structure SortsStably {α κ : Type} [LinearOrder κ] (key : α → κ) (xs ys : List α) : Prop where
  perm : ys.Perm xs
  sorted : ys.Pairwise fun a b => key a ≤ key b
  stable : ∀ k, ys.filter (key · = k) = xs.filter (key · = k)

section Stable

variable {α κ : Type} [LinearOrder κ] {key : α → κ}

theorem head_key_le {a b : α} {ys zs : List α} (hys : (a :: ys).Pairwise fun a b => key a ≤ key b)
    (h : (a :: ys).filter (key · = key b) = (b :: zs).filter (key · = key b)) : key a ≤ key b := by
  have hb : b ∈ (a :: ys).filter (key · = key b) := by
    rw [h]
    simp
  rcases List.mem_cons.mp (List.mem_filter.mp hb).1 with rfl | hmem
  · exact le_rfl
  · exact (List.pairwise_cons.mp hys).1 b hmem

theorem eq_of_sorted_of_filter_eq {ys zs : List α} (hys : ys.Pairwise fun a b => key a ≤ key b)
    (hzs : zs.Pairwise fun a b => key a ≤ key b)
    (h : ∀ k, ys.filter (key · = k) = zs.filter (key · = k)) : ys = zs := by
  induction ys generalizing zs with
  | nil =>
    cases zs with
    | nil => rfl
    | cons b zs => simpa using h (key b)
  | cons a ys ih =>
    cases zs with
    | nil => simpa using h (key a)
    | cons b zs =>
      -- The least keys agree, and so do the first elements of that key.
      have hkey : key a = key b := le_antisymm (head_key_le hys (h _)) (head_key_le hzs (h _).symm)
      have hab : a = b := by
        have hk := h (key a)
        simp only [List.filter_cons, hkey, decide_true, if_true] at hk
        exact (List.cons.inj hk).1
      subst hab
      have hrest : ys = zs := by
        apply ih hys.tail hzs.tail
        intro k
        have hk := h k
        simp only [List.filter_cons] at hk
        split at hk
        · exact (List.cons.inj hk).2
        · exact hk
      rw [hrest]

theorem SortsStably.unique {xs ys zs : List α} (h : SortsStably key xs ys) (k : SortsStably key xs zs) :
    ys = zs :=
  eq_of_sorted_of_filter_eq h.sorted k.sorted fun c => (h.stable c).trans (k.stable c).symm

theorem sortsStably_mergeSort {le : α → α → Bool} (hle : ∀ a b, le a b = true ↔ key a ≤ key b) (xs : List α) :
    SortsStably key xs (xs.mergeSort le) := by
  have htrans : ∀ a b c, le a b = true → le b c = true → le a c = true := by
    intro a b c hab hbc
    rw [hle] at *
    exact hab.trans hbc
  have htotal : ∀ a b, (le a b || le b a) = true := by
    intro a b
    rw [Bool.or_eq_true, hle, hle]
    exact le_total _ _
  have hperm : (xs.mergeSort le).Perm xs := List.mergeSort_perm xs le
  refine ⟨hperm, (List.pairwise_mergeSort htrans htotal xs).imp fun h => (hle _ _).mp h, fun k => ?_⟩
  -- What has one key is in order already, and sorting keeps a list that is.
  have hone : (xs.filter (key · = k)).Pairwise fun a b => le a b = true := by
    apply List.pairwise_of_forall_mem_list
    intro a ha b hb
    have hka := of_decide_eq_true (List.mem_filter.mp ha).2
    have hkb := of_decide_eq_true (List.mem_filter.mp hb).2
    rw [hle, hka, hkb]
  have hsub := (List.sublist_mergeSort htrans htotal hone List.filter_sublist).filter (key · = k)
  simp only [List.filter_filter, Bool.and_self] at hsub
  exact (hsub.eq_of_length (hperm.filter _).length_eq.symm).symm

/-- A list that is in order is left as it is. -/
theorem SortsStably.refl {xs : List α} (h : xs.Pairwise fun a b => key a ≤ key b) : SortsStably key xs xs :=
  ⟨.refl xs, h, fun _ => rfl⟩

theorem SortsStably.filter {xs ys : List α} (h : SortsStably key xs ys) (p : α → Bool) :
    SortsStably key (xs.filter p) (ys.filter p) := by
  refine ⟨h.perm.filter p, h.sorted.sublist List.filter_sublist, ?_⟩
  intro k
  rw [List.filter_filter, List.filter_filter]
  simp only [Bool.and_comm _ (p _)]
  rw [← List.filter_filter, ← List.filter_filter, h.stable k]

/-- The head of a sorted list has the least key, and it was the first of those that have it. -/
theorem SortsStably.head_cons {xs ys : List α} {a : α} (h : SortsStably key xs (a :: ys)) :
    (∀ x ∈ xs, key a ≤ key x) ∧ xs.find? (key · = key a) = some a := by
  constructor
  · intro x hx
    rcases List.mem_cons.mp (h.perm.mem_iff.mpr hx) with rfl | hmem
    · exact le_rfl
    · exact (List.pairwise_cons.mp h.sorted).1 x hmem
  · rw [← List.head?_filter, ← h.stable, List.filter_cons_of_pos (by simp), List.head?_cons]

end Stable

section Compared

variable {α : Type} (cmp : α → α → Ordering) [Std.TransCmp cmp]

theorem ne_gt_trans (a b c : α) (hab : (cmp a b != .gt) = true) (hbc : (cmp b c != .gt) = true) :
    (cmp a c != .gt) = true := by
  simp only [bne_iff_ne, ne_eq, ← Ordering.isLE_iff_ne_gt] at *
  exact Std.TransCmp.isLE_trans hab hbc

theorem ne_gt_total (a b : α) : (cmp a b != .gt || cmp b a != .gt) = true := by
  cases h : cmp a b with
  | gt => simp [Std.OrientedCmp.lt_of_gt h]
  | lt => rfl
  | eq => rfl

end Compared

/-- Where a diagnostic stands in a bag: by file, start and end, the worse first, then by code. -/
def Diagnostic.sortKey (d : Diagnostic) : ℕ ×ₗ ℕ ×ₗ ℕ ×ₗ ℕᵒᵈ ×ₗ ℕ :=
  toLex (d.primary.file, toLex (d.primary.start.toNat, toLex (d.primary.stop.toNat,
    toLex (OrderDual.toDual d.severity.rank.toNat, d.code.number.toNat))))

theorem then_ne_gt {o p : Ordering} : o.then p ≠ .gt ↔ o = .lt ∨ o = .eq ∧ p ≠ .gt := by
  cases o <;> simp

theorem Bag.firstDifference_cons (o : Ordering) (os : List Ordering) :
    Bag.firstDifference (o :: os) = o.then (Bag.firstDifference os) := by
  cases o <;> rfl

theorem Bag.order_ne_gt_iff (d e : Diagnostic) :
    (Bag.order d e != .gt) = true ↔ d.sortKey ≤ e.sortKey := by
  simp only [bne_iff_ne, Bag.order, Bag.firstDifference_cons, Bag.firstDifference, then_ne_gt,
    Diagnostic.sortKey, Prod.Lex.toLex_le_toLex, Std.compare_eq_lt, Std.compare_eq_iff_eq,
    OrderDual.toDual_lt_toDual, OrderDual.toDual_inj, UInt32.lt_iff_toNat_lt, UInt8.lt_iff_toNat_lt,
    UInt16.lt_iff_toNat_lt, ← UInt32.toNat_inj, ← UInt8.toNat_inj, ← UInt16.toNat_inj]
  have hcode : d.code.number.toNat < e.code.number.toNat ∨
      d.code.number.toNat = e.code.number.toNat ∧ Ordering.eq ≠ Ordering.gt ↔
        d.code.number.toNat ≤ e.code.number.toNat := by
    simp [Nat.le_iff_lt_or_eq]
  rw [hcode, eq_comm (a := e.severity.rank.toNat)]

/-! ## The first of each key -/

namespace Bag

section FirstByKey

variable {κ : Type} [BEq κ] {key : Diagnostic → κ}

theorem firstByKey_sublist (seen : List κ) (ds : List Diagnostic) : (firstByKey key seen ds).Sublist ds := by
  induction ds generalizing seen with
  | nil => exact .slnil
  | cons d ds ih =>
    rw [firstByKey]
    split
    · exact (ih seen).cons d
    · exact (ih _).cons_cons d

variable [LawfulBEq κ]

/-- Of the diagnostics of one key the first is left, or none if the key was seen before. -/
theorem filter_firstByKey (seen : List κ) (ds : List Diagnostic) (k : κ) :
    (firstByKey key seen ds).filter (key · == k) =
      if seen.contains k then [] else (ds.filter (key · == k)).take 1 := by
  induction ds generalizing seen with
  | nil => simp [firstByKey]
  | cons d ds ih =>
    rw [firstByKey]
    by_cases hd : key d = k
    · subst hd
      by_cases hseen : seen.contains (key d) = true
      · rw [if_pos hseen, ih, if_pos hseen, if_pos hseen]
      · rw [if_neg hseen, if_neg hseen, List.filter_cons_of_pos (by simp), List.filter_cons_of_pos (by simp), ih]
        simp
    · have hnot : (key d == k) = false := by simpa using hd
      have hmore : (key d :: seen).contains k = seen.contains k := by
        simp [Ne.symm hd]
      rw [List.filter_cons_of_neg (by simp [hnot])]
      split
      · exact ih seen
      · rw [List.filter_cons_of_neg (by simp [hnot]), ih, hmore]

theorem firstByKey_pairwise (seen : List κ) (ds : List Diagnostic) :
    (firstByKey key seen ds).Pairwise (fun d e => key d ≠ key e) ∧ ∀ d ∈ firstByKey key seen ds, key d ∉ seen := by
  induction ds generalizing seen with
  | nil => simp [firstByKey]
  | cons d ds ih =>
    rw [firstByKey]
    split
    · exact ih seen
    · next hseen =>
      obtain ⟨hrest, hnew⟩ := ih (key d :: seen)
      have hout : ∀ e ∈ firstByKey key (key d :: seen) ds, key e ≠ key d ∧ key e ∉ seen := by
        intro e he
        simpa using hnew e he
      constructor
      · exact List.pairwise_cons.mpr ⟨fun e he => (hout e he).1.symm, hrest⟩
      · intro e he
        rcases List.mem_cons.mp he with rfl | he
        · simpa using hseen
        · exact (hout e he).2

theorem firstByKey_eq_self {seen : List κ} {ds : List Diagnostic} (h : ds.Pairwise fun d e => key d ≠ key e)
    (hseen : ∀ d ∈ ds, key d ∉ seen) : firstByKey key seen ds = ds := by
  induction ds generalizing seen with
  | nil => rfl
  | cons d ds ih =>
    obtain ⟨hd, hds⟩ := List.pairwise_cons.mp h
    rw [firstByKey, if_neg (by simpa using hseen d List.mem_cons_self), ih hds]
    intro e he
    simp only [List.mem_cons, not_or]
    exact ⟨(hd e he).symm, hseen e (List.mem_cons_of_mem d he)⟩

end FirstByKey

/-! ## The canonical form -/

theorem sortItems_sortsStably (ds : List Diagnostic) : SortsStably Diagnostic.sortKey ds (sortItems ds) :=
  sortsStably_mergeSort order_ne_gt_iff ds

theorem sortItems_eq_self {ds : List Diagnostic} (h : ds.Pairwise fun d e => d.sortKey ≤ e.sortKey) :
    sortItems ds = ds :=
  (sortItems_sortsStably ds).unique (.refl h)

end Bag

namespace Diagnostic

/-- Does the diagnostic have this code and this place? -/
def standsAt (code : Code) (place : Span) (d : Diagnostic) : Bool := d.code == code && d.primary == place

theorem standsAt_iff {code : Code} {place : Span} {d : Diagnostic} :
    d.standsAt code place = true ↔ d.code = code ∧ d.primary = place := by
  simp [standsAt]

theorem sortKey_inj {d e : Diagnostic} :
    d.sortKey = e.sortKey ↔ d.primary = e.primary ∧ d.severity = e.severity ∧ d.code = e.code := by
  rcases d with ⟨⟨rank⟩, ⟨number⟩, message, ⟨file, start, stop⟩, notes⟩
  rcases e with ⟨⟨rank'⟩, ⟨number'⟩, message', ⟨file', start', stop'⟩, notes'⟩
  simp only [sortKey, EmbeddingLike.apply_eq_iff_eq, Prod.mk.injEq, UInt32.toNat_inj, UInt8.toNat_inj,
    UInt16.toNat_inj, Span.mk.injEq, Severity.mk.injEq, Code.mk.injEq, and_assoc]

/-- At one place the worse comes first. -/
theorem rank_le_of_sortKey_le {d e : Diagnostic} (hplace : d.primary = e.primary) (h : d.sortKey ≤ e.sortKey) :
    e.severity.rank ≤ d.severity.rank := by
  simp only [sortKey, hplace, Prod.Lex.toLex_le_toLex, lt_irrefl, false_or, true_and,
    OrderDual.toDual_lt_toDual, OrderDual.toDual_inj] at h
  rw [UInt8.le_iff_toNat_le]
  omega

end Diagnostic

namespace Bag

section Canonical

variable {b : Bag} (h : ∀ d ∈ b.items, d.code.HasFamily)

theorem mem_items_of_mem_canonical {d : Diagnostic} (hd : d ∈ b.sort.dedup.items) : d ∈ b.items :=
  (sortItems_sortsStably b.items).perm.mem_iff.mp ((firstByKey_sublist [] _).subset hd)

theorem canonical_sorted (b : Bag) : b.sort.dedup.items.Pairwise fun d e => d.sortKey < e.sortKey := by
  have hsorted : b.sort.dedup.items.Pairwise fun d e => d.sortKey ≤ e.sortKey :=
    (sortItems_sortsStably b.items).sorted.sublist (firstByKey_sublist [] _)
  have hdistinct : b.sort.dedup.items.Pairwise fun d e => shownPlace d ≠ shownPlace e :=
    (firstByKey_pairwise [] _).1
  apply (hsorted.and hdistinct).imp
  rintro d e ⟨hle, hne⟩
  apply lt_of_le_of_ne hle
  intro heq
  obtain ⟨hplace, _, hcode⟩ := Diagnostic.sortKey_inj.mp heq
  exact hne (by rw [shownPlace, shownPlace, hcode, hplace])

theorem canonical_idem (b : Bag) : b.sort.dedup.sort.dedup = b.sort.dedup := by
  have hsort : sortItems b.sort.dedup.items = b.sort.dedup.items :=
    sortItems_eq_self ((canonical_sorted b).imp le_of_lt)
  have hdedup : firstByKey shownPlace [] b.sort.dedup.items = b.sort.dedup.items :=
    firstByKey_eq_self (firstByKey_pairwise [] _).1 (by simp)
  calc
    b.sort.dedup.sort.dedup
      = { b.sort.dedup with items := firstByKey shownPlace [] (sortItems b.sort.dedup.items) } := rfl
    _ = b.sort.dedup := by rw [hsort, hdedup]

include h

/-- What is left at a place is the first there after sorting. -/
theorem canonical_filter (code : Code) (place : Span) :
    b.sort.dedup.items.filter (Diagnostic.standsAt code place) =
      ((sortItems b.items).filter (Diagnostic.standsAt code place)).take 1 := by
  have hperm := (sortItems_sortsStably b.items).perm
  cases hthere : (sortItems b.items).filter (Diagnostic.standsAt code place) with
  | nil =>
    apply List.filter_eq_nil_iff.mpr
    intro d hd
    exact List.filter_eq_nil_iff.mp hthere d ((firstByKey_sublist [] _).subset hd)
  | cons d rest =>
    have hmem : d ∈ (sortItems b.items).filter (Diagnostic.standsAt code place) := hthere ▸ List.mem_cons_self
    obtain ⟨hd, hat⟩ := List.mem_filter.mp hmem
    obtain ⟨rfl, rfl⟩ := Diagnostic.standsAt_iff.mp hat
    have hfamily := h d (hperm.mem_iff.mp hd)
    -- Among diagnostics of the bag the shown place is the code and the place.
    have hsame : ∀ e ∈ sortItems b.items, e.standsAt d.code d.primary = (shownPlace e == shownPlace d) := by
      intro e he
      rw [Bool.eq_iff_iff, Diagnostic.standsAt_iff, beq_iff_eq,
        shownPlace_inj (h e (hperm.mem_iff.mp he)) hfamily]
    calc
      b.sort.dedup.items.filter (Diagnostic.standsAt d.code d.primary)
        = b.sort.dedup.items.filter (shownPlace · == shownPlace d) :=
          List.filter_congr fun e he => hsame e ((firstByKey_sublist [] _).subset he)
      _ = ((sortItems b.items).filter (shownPlace · == shownPlace d)).take 1 := filter_firstByKey [] _ _
      _ = (d :: rest).take 1 := by rw [← List.filter_congr hsame, hthere]

end Canonical

/-- Sorting and then dropping repeats brings a bag into order. Each code at each place that was there is left
once, by the first of the worst that it had there, and doing both again changes nothing. -/
theorem sort_dedup_canonical (b : Bag) (h : ∀ d ∈ b.items, d.code.HasFamily) :
    b.sort.dedup.items.Pairwise (fun d e => d.sortKey < e.sortKey) ∧
    (∀ d ∈ b.sort.dedup.items, d ∈ b.items) ∧
    (∀ code place, b.items.filter (Diagnostic.standsAt code place) ≠ [] →
      ∃ d, b.sort.dedup.items.filter (Diagnostic.standsAt code place) = [d] ∧
        (∀ e ∈ b.items.filter (Diagnostic.standsAt code place), e.severity.rank ≤ d.severity.rank) ∧
        (b.items.filter (Diagnostic.standsAt code place)).find? (·.severity = d.severity) = some d) ∧
    b.sort.dedup.sort.dedup = b.sort.dedup := by
  refine ⟨canonical_sorted b, fun d hd => mem_items_of_mem_canonical hd, ?_, canonical_idem b⟩
  intro code place hne
  have hsorts := (sortItems_sortsStably b.items).filter (Diagnostic.standsAt code place)
  have hsome : (sortItems b.items).filter (Diagnostic.standsAt code place) ≠ [] := by
    intro hnil
    rw [hnil] at hsorts
    exact hne hsorts.perm.symm.eq_nil
  obtain ⟨d, rest, hthere⟩ := List.exists_cons_of_ne_nil hsome
  rw [hthere] at hsorts
  obtain ⟨hleast, hfirst⟩ := hsorts.head_cons
  have hat : ∀ e ∈ b.items.filter (Diagnostic.standsAt code place), e.code = code ∧ e.primary = place := by
    intro e he
    exact Diagnostic.standsAt_iff.mp (List.mem_filter.mp he).2
  obtain ⟨hcode, hplace⟩ := hat d (hsorts.perm.mem_iff.mp List.mem_cons_self)
  refine ⟨d, ?_, ?_, ?_⟩
  · rw [canonical_filter h, hthere]
    rfl
  · intro e he
    exact Diagnostic.rank_le_of_sortKey_le (hplace.trans (hat e he).2.symm) (hleast e he)
  · -- At one place and with one code, the key is the severity.
    have hkey : ∀ e ∈ b.items.filter (Diagnostic.standsAt code place),
        decide (e.sortKey = d.sortKey) = decide (e.severity = d.severity) := by
      intro e he
      obtain ⟨hcode', hplace'⟩ := hat e he
      simp [Diagnostic.sortKey_inj, hcode, hplace, hcode', hplace']
    rw [← List.head?_filter] at hfirst ⊢
    rwa [← List.filter_congr hkey]

/-- A warning and two errors with one code at one place. -/
def pileUp : List Diagnostic :=
  [.warning .notDeclared { start := 4, stop := 7 } "odd", .error .notDeclared { start := 4, stop := 7 } "first",
    .error .notDeclared { start := 4, stop := 7 } "second"]

theorem pileUp_first_error_left : (∀ d ∈ pileUp, d.code.HasFamily) ∧
    (sort { items := pileUp }).dedup.items.filter (Diagnostic.standsAt .notDeclared { start := 4, stop := 7 }) =
      [.error .notDeclared { start := 4, stop := 7 } "first"] := by
  have hcodes : ∀ d ∈ pileUp, d.code.HasFamily := by decide
  obtain ⟨_, _, hleft, _⟩ := sort_dedup_canonical { items := pileUp } hcodes
  obtain ⟨d, hd, hworst, hfirst⟩ := hleft .notDeclared { start := 4, stop := 7 } (by decide)
  refine ⟨hcodes, ?_⟩
  have hrank := hworst (.error .notDeclared { start := 4, stop := 7 } "second") (by decide)
  have hmem := List.mem_of_find?_eq_some hfirst
  have hthere : pileUp.filter (Diagnostic.standsAt .notDeclared { start := 4, stop := 7 }) = pileUp := by decide
  rw [hthere] at hmem hfirst
  simp only [pileUp, List.mem_cons, List.not_mem_nil, or_false] at hmem
  rcases hmem with rfl | rfl | rfl
  · exact absurd hrank (by decide)
  · exact hd
  · exact absurd hfirst (by decide)

end Bag

end DeclCheck
