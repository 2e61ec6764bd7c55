import DeclCheck.Proofs.Source.Lines

/-!
# Carriage returns before line feeds

A carriage return right before a line feed is dropped when a file is read, and no other byte is. The line feeds stay, so
the lines keep their numbers: a line that is ended by a line feed loses at most the carriage return at its end, and
the last line loses nothing.
-/
namespace DeclCheck.Lines

open Text

/-! ## Bytes -/

/-- A carriage return stands right before a line feed. -/
def IsReturn (t : Text) (i : Nat) : Prop := t[i]? = some carriageReturn ∧ t[i + 1]? = some newline

instance (t : Text) : DecidablePred (IsReturn t) := fun _ => inferInstanceAs (Decidable (_ ∧ _))

theorem dropReturns_cons (b : UInt8) (t : Text) :
    dropReturns (b :: t) = if IsReturn (b :: t) 0 then dropReturns t else b :: dropReturns t := by
  cases t <;> simp [dropReturns, IsReturn]

theorem hasReturns_cons (b : UInt8) (t : Text) :
    hasReturns (b :: t) = (decide (IsReturn (b :: t) 0) || hasReturns t) := by
  cases t <;> simp [hasReturns, IsReturn]

/-- What is left are the bytes at all other indices, in their order. -/
theorem dropReturns_eq (t : Text) :
    dropReturns t = ((List.range t.length).filter fun i => ¬ IsReturn t i).filterMap (t[·]?) := by
  induction t with
  | nil => rfl
  | cons b t ih =>
    have hrest : (((List.range t.length).map Nat.succ).filter fun i => ¬ IsReturn (b :: t) i).filterMap ((b :: t)[·]?) =
        dropReturns t := by
      rw [ih, List.filter_map, List.filterMap_map]
      rfl
    rw [dropReturns_cons, List.length_cons, List.range_succ_eq_map, List.filter_cons]
    split
    · next h => rw [if_neg (by simpa using h), hrest]
    · next h => rw [if_pos (by simpa using h), List.filterMap_cons_some (f := ((b :: t)[·]?)) rfl, hrest]

theorem hasReturns_iff {t : Text} : hasReturns t = true ↔ ∃ i, IsReturn t i := by
  induction t with
  | nil => simp [hasReturns, IsReturn]
  | cons b t ih =>
    rw [hasReturns_cons, Bool.or_eq_true, decide_eq_true_iff, ih]
    constructor
    · rintro (h | ⟨i, h⟩)
      · exact ⟨0, h⟩
      · exact ⟨i + 1, h⟩
    · rintro ⟨i, h⟩
      cases i with
      | zero => exact .inl h
      | succ i => exact .inr ⟨i, h⟩

theorem length_dropReturns_le (t : Text) : (dropReturns t).length ≤ t.length := by
  rw [dropReturns_eq]
  exact (List.length_filterMap_le _ _).trans ((List.length_filter_le _ _).trans (List.length_range).le)

theorem hasReturns_iff_shorter {t : Text} : hasReturns t = true ↔ (dropReturns t).length < t.length := by
  induction t with
  | nil => simp [hasReturns, dropReturns]
  | cons b t ih =>
    have hle := length_dropReturns_le t
    rw [hasReturns_cons, dropReturns_cons, Bool.or_eq_true, decide_eq_true_iff, ih]
    split
    · next h =>
      refine ⟨fun _ => ?_, fun _ => .inl h⟩
      rw [List.length_cons]
      omega
    · next h => rw [or_iff_right h, List.length_cons, List.length_cons, Nat.add_lt_add_iff_right]

theorem dropReturns_of_hasReturns_eq_false {t : Text} (h : hasReturns t = false) : dropReturns t = t := by
  induction t with
  | nil => rfl
  | cons b t ih =>
    rw [hasReturns_cons, Bool.or_eq_false_iff, decide_eq_false_iff_not] at h
    rw [dropReturns_cons, if_neg h.1, ih h.2]

theorem hasReturns_of_not_mem {t : Text} (h : carriageReturn ∉ t) : hasReturns t = false := by
  rw [Bool.eq_false_iff, ne_eq, hasReturns_iff]
  rintro ⟨i, hi, _⟩
  exact h (List.mem_of_getElem? hi)

/-! ## Lines -/

theorem count_dropReturns (t : Text) : (dropReturns t).count newline = t.count newline := by
  induction t with
  | nil => rfl
  | cons b t ih =>
    rw [dropReturns_cons]
    split
    · next h =>
      obtain rfl := Option.some.inj h.1
      rw [ih, List.count_cons_of_ne (by decide)]
    · rw [List.count_cons, List.count_cons, ih]

theorem dropReturns_of_not_mem {l : Text} (h : newline ∉ l) : dropReturns l = l := by
  apply dropReturns_of_hasReturns_eq_false
  rw [Bool.eq_false_iff, ne_eq, hasReturns_iff]
  rintro ⟨i, _, hi⟩
  exact h (List.mem_of_getElem? hi)

/-- A byte that is no line feed keeps what is before it from being dropped. -/
theorem dropReturns_append {l : Text} (h : newline ∉ l) {b : UInt8} (hb : b ≠ newline) (t : Text) :
    dropReturns (l ++ b :: t) = l ++ dropReturns (b :: t) := by
  induction l with
  | nil => rfl
  | cons c l ih =>
    obtain ⟨_, hl⟩ := not_or.mp (List.mem_cons.not.mp h)
    have hnot : ¬ IsReturn (c :: (l ++ b :: t)) 0 := by
      rintro ⟨_, hnext⟩
      cases l with
      | nil => exact hb (Option.some.inj hnext)
      | cons d l => exact hl (Option.some.inj hnext ▸ List.mem_cons_self)
    rw [List.cons_append, dropReturns_cons, if_neg hnot, ih hl, List.cons_append]

theorem dropTrailing_append_singleton (l : Text) (b : UInt8) :
    (l ++ [b]).dropTrailing [carriageReturn] = if b = carriageReturn then l else l ++ [b] := by
  have hends : (l ++ [b]).endsWith [carriageReturn] = true ↔ b = carriageReturn := by
    rw [endsWith, List.isSuffixOf_iff_suffix]
    constructor
    · rintro ⟨u, hu⟩
      exact (List.cons.inj (List.append_inj_right' hu rfl)).1.symm
    · rintro rfl
      exact List.suffix_append l _
  rw [dropTrailing]
  split
  · next h => rw [if_pos (hends.mp h), List.length_append, List.length_singleton, List.length_singleton, Nat.add_sub_cancel,
      List.take_left]
  · next h => rw [if_neg (mt hends.mpr h)]

/-- A line that is ended by a line feed loses the carriage return at its end. -/
theorem dropReturns_line {l : Text} (h : newline ∉ l) (t : Text) :
    dropReturns (l ++ newline :: t) = l.dropTrailing [carriageReturn] ++ newline :: dropReturns t := by
  have hfeed : dropReturns (newline :: t) = newline :: dropReturns t := by
    rw [dropReturns_cons, if_neg]
    rintro ⟨hreturn, _⟩
    exact absurd (Option.some.inj hreturn) (by decide)
  cases l using List.reverseRecOn with
  | nil => exact hfeed
  | append_singleton l b =>
    obtain ⟨hl, hb⟩ := not_or.mp (List.mem_append.not.mp h)
    have hne : b ≠ newline := fun heq => hb (heq ▸ List.mem_singleton_self b)
    have hreturn : IsReturn (b :: newline :: t) 0 ↔ b = carriageReturn := by simp [IsReturn]
    rw [List.append_assoc, List.singleton_append, dropReturns_append hl hne, dropReturns_cons, hfeed,
      dropTrailing_append_singleton]
    split
    · next heq => rw [if_pos (hreturn.mp heq)]
    · next heq => rw [if_neg (mt hreturn.mpr heq), List.append_assoc, List.singleton_append]

theorem newline_not_mem_dropTrailing {l : Text} (h : newline ∉ l) (s : Text) : newline ∉ l.dropTrailing s := by
  rw [dropTrailing]
  split
  · exact fun hmem => h (List.mem_of_mem_take hmem)
  · exact h

theorem splitOn_dropReturns_getElem? {t l : Text} {k : Nat} (h : (splitOn newline t)[k]? = some l) :
    (splitOn newline (dropReturns t))[k]? =
      some (if k < t.count newline then l.dropTrailing [carriageReturn] else l) := by
  induction t using lines_induction generalizing k with
  | last first hfirst =>
    rw [dropReturns_of_not_mem hfirst, h, List.count_eq_zero.mpr hfirst, if_neg (Nat.not_lt_zero k)]
  | line first w hfirst ih =>
    rw [splitOn_line hfirst] at h
    rw [dropReturns_line hfirst, splitOn_line (newline_not_mem_dropTrailing hfirst _), count_line hfirst]
    cases k with
    | zero =>
      cases h
      rw [if_pos (Nat.succ_pos _), List.getElem?_cons_zero]
    | succ k =>
      rw [List.getElem?_cons_succ, ih h]
      simp only [Nat.add_lt_add_iff_right]

/-- Exactly the carriage returns right before line feeds are dropped. It is told whether there was one, also of a
text without any carriage return, which stays as it is. There are as many lines as before, and each is the
line of its number without at most one carriage return at its end, where that was ended by a line feed. -/
theorem dropReturns_keeps_lines (t : Text) :
    dropReturns t = ((List.range t.length).filter fun i => ¬ IsReturn t i).filterMap (t[·]?) ∧
    (hasReturns t = true ↔ ∃ i, IsReturn t i) ∧
    (hasReturns t = true ↔ (dropReturns t).length < t.length) ∧
    (carriageReturn ∉ t → dropReturns t = t ∧ hasReturns t = false) ∧
    (splitOn newline (dropReturns t)).length = (splitOn newline t).length ∧
    ∀ (k : Nat) (l : Text), (splitOn newline t)[k]? = some l →
      (splitOn newline (dropReturns t))[k]? =
        some (if k < t.count newline then l.dropTrailing [carriageReturn] else l) := by
  refine ⟨dropReturns_eq t, hasReturns_iff, hasReturns_iff_shorter, fun h => ?_, ?_,
    fun k l => splitOn_dropReturns_getElem?⟩
  · have hnone := hasReturns_of_not_mem h
    exact ⟨dropReturns_of_hasReturns_eq_false hnone, hnone⟩
  · rw [length_splitOn, length_splitOn, count_dropReturns]

/-- Two carriage returns before a line feed, one within a line and one at the end of the text: only the second of the
two is dropped. -/
theorem doubled_return_kept :
    let t : Text := [carriageReturn, 97, carriageReturn, carriageReturn, newline, 98, carriageReturn]
    (splitOn newline t)[0]? = some [carriageReturn, 97, carriageReturn, carriageReturn] ∧
      (splitOn newline (dropReturns t))[0]? = some [carriageReturn, 97, carriageReturn] ∧
      (splitOn newline (dropReturns t))[1]? = some [98, carriageReturn] ∧
      carriageReturn ∉ [97, newline] ∧ hasReturns [97, newline] = false := by
  intro t
  obtain ⟨_, _, _, _, _, hline⟩ := dropReturns_keeps_lines t
  obtain ⟨_, _, _, hplain, _⟩ := dropReturns_keeps_lines [97, newline]
  exact ⟨rfl, hline 0 _ rfl, hline 1 _ rfl, by decide, (hplain (by decide)).2⟩

end DeclCheck.Lines
