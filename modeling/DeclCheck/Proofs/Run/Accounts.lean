import DeclCheck.Proofs.Run.Settling

/-!
# The accounts of a bag

Nothing that is reported gets lost: a report is a repeat, or it finds no room and is counted as dropped, or it
is in the bag. Repeats are left out first, so a repeat takes no room and is not dropped. What is in the bag
stands in the order of its keys, and reports of one key stand as they came; no other list is in that order.
-/
namespace DeclCheck

/-! ## What is counted -/

namespace Bag

/-- What is added and finds no room is counted. -/
theorem foldl_add_dropped (b : Bag) (ds : List Diagnostic) :
    (ds.foldl add b).dropped + (b.fitting ds).length = b.dropped + ds.length := by
  induction ds generalizing b with
  | nil => simp [fitting]
  | cons d ds ih =>
    have hrest := ih (b.add d)
    rw [List.foldl_cons, List.length_cons]
    by_cases hfull : b.isFull = true
    · have hadd : b.add d = { b with dropped := b.dropped + 1 } := if_pos hfull
      simp only [isFull, Bool.and_eq_true, decide_eq_true_eq] at hfull
      have hlimit : b.limit ≠ 0 := Nat.ne_of_gt hfull.1
      simp only [hadd, fitting, if_neg hlimit, Nat.sub_eq_zero_of_le hfull.2, List.take_zero, List.length_nil]
        at hrest ⊢
      omega
    · have hadd : b.add d = { b with items := b.items ++ [d] } := if_neg hfull
      simp only [isFull, Bool.and_eq_true, decide_eq_true_eq, not_and, Nat.not_le] at hfull
      simp only [hadd, fitting, List.length_append, List.length_singleton] at hrest ⊢
      by_cases hlimit : b.limit = 0
      · simp only [if_pos hlimit, List.length_cons] at hrest ⊢
        omega
      · have hroom := hfull (Nat.pos_of_ne_zero hlimit)
        simp only [if_neg hlimit, List.length_take, List.length_cons] at hrest ⊢
        omega

end Bag

namespace Run

/-- Going on with the keys that were seen is leaving out what has them. -/
theorem firstByKey_eq_eraseDupsBy (seen : List DiagnosticKey) (ds : List Diagnostic) :
    Bag.firstByKey Diagnostic.key seen ds =
      (ds.filter (·.key ∉ seen)).eraseDupsBy fun d e => d.key == e.key := by
  induction ds generalizing seen with
  | nil => rfl
  | cons d ds ih =>
    rw [Bag.firstByKey, ih, ih]
    by_cases hd : d.key ∈ seen
    · simp [hd]
    · simp [hd, List.eraseDupsBy_cons]

theorem foldl_sift_suppressed (f : RepeatFilter) (b : Bag) (ds : List Diagnostic) :
    (ds.foldl (fun x d => RepeatFilter.add x.1 x.2 d) (f, b)).1.suppressed +
      (Bag.firstByKey Diagnostic.key f.seen ds).length = f.suppressed + ds.length := by
  induction ds generalizing f b with
  | nil => rfl
  | cons d ds ih =>
    rw [List.foldl_cons, Bag.firstByKey, List.length_cons]
    by_cases hseen : f.seen.contains d.key = true
    · have hstep : RepeatFilter.add f b d = ({ f with suppressed := f.suppressed + 1 }, b) := by
        simp only [RepeatFilter.add, RepeatFilter.sift, hseen, if_true]
      have hrest := ih { f with suppressed := f.suppressed + 1 } b
      rw [hstep, if_pos hseen, hrest]
      dsimp only
      omega
    · have hstep : RepeatFilter.add f b d = ({ f with seen := d.key :: f.seen }, b.add d) := by
        simp only [RepeatFilter.add, RepeatFilter.sift, hseen, Bool.false_eq_true, if_false]
      have hrest := ih { f with seen := d.key :: f.seen } (b.add d)
      rw [hstep, if_neg hseen, List.length_cons, ← Nat.add_assoc, hrest, Nat.add_assoc]

theorem distinct_true (reports : List Diagnostic) :
    distinct true reports = reports.eraseDupsBy fun d e => d.key == e.key := by
  have hall : reports.filter (·.key ∉ ([] : List DiagnosticKey)) = reports :=
    List.filter_eq_self.mpr fun _ _ => rfl
  rw [distinct, if_pos rfl, firstByKey_eq_eraseDupsBy, hall]

theorem settle_repeats (dedup : Bool) (b : Bag) (reports : List Diagnostic) :
    (settle dedup b reports).2 + (distinct dedup reports).length = reports.length := by
  cases dedup with
  | false => simp [settle, distinct]
  | true =>
    have hsift := foldl_sift_suppressed {} b reports
    rwa [Nat.zero_add] at hsift

theorem settle_dropped (dedup : Bool) (b : Bag) (reports : List Diagnostic) :
    (settle dedup b reports).1.dropped + (b.fitting (distinct dedup reports)).length =
      b.dropped + (distinct dedup reports).length := by
  have hadd := Bag.foldl_add_dropped b (distinct dedup reports)
  cases dedup with
  | false => exact hadd
  | true =>
    have hsift := foldl_sift {} b reports
    simp only [settle, Bag.sort, if_true, hsift]
    exact hadd

/-- What settles in a bag with `p` in it, of which `n` were dropped before. Of the reports, or of the first of
each key if repeats are to be left out, as many are taken as there is room for. They stand in the bag behind
`p` and are sorted with it, and the repeats and those without room are counted. -/
theorem settle_accounts (dedup : Bool) (max : Int) (p : List Diagnostic) (n : Nat) (reports : List Diagnostic) :
    let counted := if dedup then reports.eraseDupsBy (fun d e => d.key == e.key) else reports
    let taken := if max ≤ 0 then counted else counted.take (max.toNat - p.length)
    let settled := settle dedup { Bag.empty max with items := p, dropped := n } reports
    (∀ ys, settled.1.items = ys ↔ SortsStably Diagnostic.sortKey (p ++ taken) ys) ∧
      settled.2 + counted.length = reports.length ∧
      settled.1.dropped + taken.length = n + counted.length ∧
      settled.1.items.length + (settled.1.dropped - n) + settled.2 = p.length + reports.length := by
  intro counted taken settled
  have hcounted : distinct dedup reports = counted := by
    cases dedup with
    | false => rfl
    | true => exact distinct_true reports
  have htaken : ({ Bag.empty max with items := p, dropped := n } : Bag).fitting counted = taken := by
    simp only [Bag.fitting, Bag.empty, Int.toNat_eq_zero, taken]
  have hitems := settle_items dedup { Bag.empty max with items := p, dropped := n } reports
  have hrepeats := settle_repeats dedup { Bag.empty max with items := p, dropped := n } reports
  have hdropped := settle_dropped dedup { Bag.empty max with items := p, dropped := n } reports
  rw [hcounted, htaken] at hitems hdropped
  rw [hcounted] at hrepeats
  have hsorts : SortsStably Diagnostic.sortKey (p ++ taken) settled.1.items := by
    change settled.1.items = Bag.sortItems (p ++ taken) at hitems
    rw [hitems]
    exact sortsStably_mergeSort Bag.order_ne_gt_iff _
  refine ⟨fun ys => ⟨fun h => h ▸ hsorts, hsorts.unique⟩, hrepeats, hdropped, ?_⟩
  have hlength := hsorts.perm.length_eq
  rw [List.length_append] at hlength
  change settled.2 + counted.length = reports.length at hrepeats
  change settled.1.dropped + taken.length = n + counted.length at hdropped
  have hle : taken.length ≤ counted.length := by
    simp only [taken]
    split
    · exact le_rfl
    · exact List.length_take_le' _ _
  omega

end Run

end DeclCheck
