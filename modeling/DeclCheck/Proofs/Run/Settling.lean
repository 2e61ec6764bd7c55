import DeclCheck.Proofs.Diagnostic.Sorting
import DeclCheck.Run

/-!
# What settles in a bag

A bag takes what is reported until it is full. What has settled in it is a front part of the reports,
repeats left out if that is asked for, in the order of diagnostics.
-/
namespace DeclCheck

namespace Bag

/-- Those of further diagnostics for which there is room. -/
def fitting (b : Bag) (ds : List Diagnostic) : List Diagnostic :=
  if b.limit = 0 then ds else ds.take (b.limit - b.items.length)

theorem foldl_add_items (b : Bag) (ds : List Diagnostic) :
    (ds.foldl add b).items = b.items ++ b.fitting ds := by
  induction ds generalizing b with
  | nil => simp [fitting]
  | cons d ds ih =>
    rw [List.foldl_cons, ih]
    by_cases hfull : b.isFull = true
    · have hadd : b.add d = { b with dropped := b.dropped + 1 } := if_pos hfull
      simp only [isFull, Bool.and_eq_true, decide_eq_true_eq] at hfull
      have hlimit : b.limit ≠ 0 := Nat.ne_of_gt hfull.1
      simp [hadd, fitting, hlimit, Nat.sub_eq_zero_of_le hfull.2]
    · have hadd : b.add d = { b with items := b.items ++ [d] } := if_neg hfull
      rw [hadd]
      by_cases hlimit : b.limit = 0
      · simp [fitting, hlimit]
      · have hroom : b.items.length < b.limit := by
          simp only [isFull, Bool.and_eq_true, decide_eq_true_eq, not_and, Nat.not_le] at hfull
          exact hfull (Nat.pos_of_ne_zero hlimit)
        have htake : b.limit - b.items.length = b.limit - (b.items.length + 1) + 1 := by omega
        simp [fitting, hlimit, htake]

theorem mem_fitting {b : Bag} {ds : List Diagnostic} {d : Diagnostic} :
    d ∈ b.fitting ds ↔
      ∃ n, ds[n]? = some d ∧ (b.limit = 0 ∨ b.items.length + n < b.limit) := by
  unfold fitting
  split
  · next h => simp [h, List.mem_iff_getElem?]
  · next h =>
    rw [List.mem_iff_getElem?]
    constructor
    · rintro ⟨n, hn⟩
      rw [List.getElem?_take] at hn
      split at hn
      · exact ⟨n, hn, .inr (by omega)⟩
      · cases hn
    · rintro ⟨n, hn, hlt⟩
      refine ⟨n, ?_⟩
      rw [List.getElem?_take, if_pos (by omega), hn]

theorem sortItems_perm (ds : List Diagnostic) : (sortItems ds).Perm ds := List.mergeSort_perm ..

/-! ## The order of diagnostics -/

instance : Std.TransCmp order := by
  have h : order = compareLex (compareOn (·.primary.file))
      (compareLex (compareOn (·.primary.start)) (compareLex (compareOn (·.primary.stop))
        (compareLex (fun d e => compareOn (·.severity.rank) e d)
          (compareOn (·.code.number))))) := by
    funext d e
    simp only [order, firstDifference_cons, firstDifference, compareLex, compareOn,
      Ordering.then_eq]
  rw [h]
  infer_instance

/-- A diagnostic that came first does not disturb the order of the others. -/
theorem sortItems_cons_filter {p : Diagnostic → Bool} {w : Diagnostic} (hw : p w = false)
    (ds : List Diagnostic) : (sortItems (w :: ds)).filter p = (sortItems ds).filter p := by
  obtain ⟨front, back, hcons, hds, _⟩ := List.mergeSort_cons (ne_gt_trans order) (ne_gt_total order) w ds
  rw [sortItems, sortItems, hcons, hds]
  simp [hw]

theorem sortItems_eq_iff {ds es : List Diagnostic} (h : ds <+: es) :
    sortItems ds = sortItems es ↔ ds = es := by
  constructor
  · intro heq
    have hlength : ds.length = es.length := by
      rw [← (sortItems_perm ds).length_eq, heq, (sortItems_perm es).length_eq]
    exact h.eq_of_length hlength
  · rintro rfl
    rfl

end Bag

/-- The number of warnings that a lookup in the cache leaves. -/
def CacheAnswer.warnings : CacheAnswer → Nat
  | .unreadable _ => 1
  | _ => 0

namespace Run

/-- A remark of the run about itself: the cache failed, or how long it took. -/
def isRemark (d : Diagnostic) : Bool := d.code == .cacheError || d.code == .timings

/-- What of the reports counts: all of them, or the first of those that look the same. -/
def distinct (dedup : Bool) (reports : List Diagnostic) : List Diagnostic :=
  if dedup then Bag.firstByKey Diagnostic.key [] reports else reports

theorem exists_mem_firstByKey {seen : List DiagnosticKey} {ds : List Diagnostic} {d : Diagnostic}
    (h : d ∈ ds) (hseen : d.key ∉ seen) :
    ∃ e ∈ Bag.firstByKey Diagnostic.key seen ds, e.key = d.key := by
  induction ds generalizing seen with
  | nil => cases h
  | cons x xs ih =>
    unfold Bag.firstByKey
    by_cases hkey : d.key = x.key
    · have hx : ¬ seen.contains x.key = true := by simpa [hkey] using hseen
      rw [if_neg hx]
      exact ⟨x, List.mem_cons_self .., hkey.symm⟩
    · have hmem : d ∈ xs := (List.mem_cons.mp h).resolve_left fun hd => hkey (hd ▸ rfl)
      split
      · exact ih hmem hseen
      · obtain ⟨e, he, hek⟩ := ih hmem (show d.key ∉ x.key :: seen by simp [hkey, hseen])
        exact ⟨e, List.mem_cons_of_mem x he, hek⟩

theorem firstByKey_front (seen : List DiagnosticKey) (ds rest : List Diagnostic) :
    Bag.firstByKey Diagnostic.key seen ds <+: Bag.firstByKey Diagnostic.key seen (ds ++ rest) := by
  induction ds generalizing seen with
  | nil => exact List.nil_prefix
  | cons d ds ih =>
    rw [List.cons_append]
    unfold Bag.firstByKey
    split
    · exact ih seen
    · exact (List.prefix_cons_inj d).mpr (ih (d.key :: seen))

theorem mem_of_mem_distinct {dedup : Bool} {reports : List Diagnostic} {d : Diagnostic}
    (h : d ∈ distinct dedup reports) : d ∈ reports := by
  cases dedup with
  | false => exact h
  | true => exact (Bag.firstByKey_sublist [] reports).subset h

/-- What counts of a front part counts first of the whole. -/
theorem distinct_front (dedup : Bool) {reports all : List Diagnostic} (h : reports <+: all) :
    distinct dedup reports <+: distinct dedup all := by
  obtain ⟨rest, rfl⟩ := h
  cases dedup with
  | false => exact List.prefix_append reports rest
  | true => exact firstByKey_front [] reports rest

/-- Leaving repeats out leaves no error out. -/
theorem exists_error_distinct (dedup : Bool) (reports : List Diagnostic) :
    (∃ e ∈ distinct dedup reports, e.isError = true) ↔ ∃ e ∈ reports, e.isError = true := by
  cases dedup with
  | false => rfl
  | true =>
    constructor
    · rintro ⟨e, he, herror⟩
      exact ⟨e, mem_of_mem_distinct he, herror⟩
    · rintro ⟨e, he, herror⟩
      obtain ⟨x, hx, hkey⟩ := exists_mem_firstByKey he (List.not_mem_nil)
      have hseverity : x.severity = e.severity := congrArg DiagnosticKey.severity hkey
      exact ⟨x, hx, by rwa [Diagnostic.isError, hseverity]⟩

theorem foldl_sift (f : RepeatFilter) (b : Bag) (ds : List Diagnostic) :
    (ds.foldl (fun x d => RepeatFilter.add x.1 x.2 d) (f, b)).2 =
      (Bag.firstByKey Diagnostic.key f.seen ds).foldl Bag.add b := by
  induction ds generalizing f b with
  | nil => rfl
  | cons d ds ih =>
    rw [List.foldl_cons, Bag.firstByKey]
    by_cases hseen : f.seen.contains d.key = true
    · simp only [RepeatFilter.add, RepeatFilter.sift, hseen, if_true]
      exact ih _ b
    · simp only [RepeatFilter.add, RepeatFilter.sift, hseen, Bool.false_eq_true, if_false]
      exact ih _ (b.add d)

/-- What has settled: what was in the bag, and those reports that count and find room, in order. -/
theorem settle_items (dedup : Bool) (b : Bag) (reports : List Diagnostic) :
    (settle dedup b reports).1.items =
      Bag.sortItems (b.items ++ b.fitting (distinct dedup reports)) := by
  cases dedup with
  | false => simp [settle, distinct, Bag.sort, Bag.foldl_add_items]
  | true =>
    simp only [settle, distinct, Bag.sort, if_true]
    rw [foldl_sift, Bag.foldl_add_items]

theorem settle_hasErrors (dedup : Bool) (b : Bag) (reports : List Diagnostic) :
    (settle dedup b reports).1.hasErrors =
      (b.items ++ b.fitting (distinct dedup reports)).any (·.isError) := by
  unfold Bag.hasErrors
  rw [settle_items]
  exact (Bag.sortItems_perm _).any_eq

theorem startBag_limit (limit : Int) (answer : CacheAnswer) :
    (startBag limit 0 answer).limit = limit.toNat := by
  cases answer with
  | unreadable reason =>
    simp only [startBag, Bag.add]
    split <;> rfl
  | miss => rfl
  | hit record => rfl

theorem startBag_items (limit : Int) (answer : CacheAnswer) :
    (startBag limit 0 answer).items.length = answer.warnings ∧
      ∀ d ∈ (startBag limit 0 answer).items, d.isError = false ∧ isRemark d = true := by
  cases answer with
  | unreadable reason =>
    have hroom : (Bag.empty limit).isFull = false := by
      cases hlimit : limit.toNat <;> simp [Bag.isFull, Bag.empty, hlimit]
    rw [startBag, Bag.add, if_neg (by rw [hroom]; decide)]
    refine ⟨rfl, fun d hd => ?_⟩
    rw [List.mem_singleton.mp hd]
    exact ⟨rfl, rfl⟩
  | miss => simp [startBag, Bag.empty, CacheAnswer.warnings]
  | hit record => simp [startBag, Bag.empty, CacheAnswer.warnings]

end Run

end DeclCheck
