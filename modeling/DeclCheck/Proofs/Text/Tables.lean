import DeclCheck.Text.Letter
import DeclCheck.Text.Normal
import Mathlib.Data.List.Chain

/-!
# What the tables of code points agree on

The tables of letters, of digits, of combining classes and of decompositions are lists of their own. Here is
what the normal form needs of them together: taking a code point apart comes to an end after three steps, the
second part of a pair is no letter, and a letter has no combining class. Each fact is one pass over a table;
a set of code points is kept as the bits of a number for it.
-/
namespace DeclCheck.Text

/-! ## Ranges -/

/-- The code points of ranges as the bits of a number. -/
def rangeBits (rs : List (Nat × Nat)) : Nat :=
  rs.foldr (fun r bits => bits ||| ((1 <<< (r.2 + 1 - r.1)) - 1) <<< r.1) 0

theorem testBit_rangeBits {rs : List (Nat × Nat)} {n : Nat} :
    (rangeBits rs).testBit n = true ↔ ∃ r ∈ rs, r.1 ≤ n ∧ n ≤ r.2 := by
  induction rs with
  | nil => simp [rangeBits]
  | cons r rs ih =>
    have hcons : rangeBits (r :: rs) = rangeBits rs ||| ((1 <<< (r.2 + 1 - r.1)) - 1) <<< r.1 := rfl
    rw [hcons, Nat.testBit_or, Bool.or_eq_true, ih, Nat.testBit_shiftLeft, Nat.one_shiftLeft,
      Nat.testBit_two_pow_sub_one, Bool.and_eq_true, decide_eq_true_iff, decide_eq_true_iff]
    constructor
    · rintro (⟨q, hq, hn⟩ | h)
      · exact ⟨q, List.mem_cons_of_mem _ hq, hn⟩
      · exact ⟨r, List.mem_cons_self, by omega⟩
    · rintro ⟨q, hq, hn⟩
      rcases List.mem_cons.mp hq with rfl | hq
      · exact .inr (by omega)
      · exact .inl ⟨q, hq, hn⟩

theorem exists_of_inRanges {rs : List (Nat × Nat)} {n : Nat} (h : inRanges rs n = true) :
    ∃ r ∈ rs, r.1 ≤ n ∧ n ≤ r.2 := by
  fun_induction inRanges rs n with
  | case1 => cases h
  | case2 => cases h
  | case3 n lo hi rest hlo hhi => exact ⟨_, List.mem_cons_self, by omega, hhi⟩
  | case4 n lo hi rest hlo hhi ih =>
    obtain ⟨r, hr, hn⟩ := ih h
    exact ⟨r, List.mem_cons_of_mem _ hr, hn⟩

theorem inRanges_eq_false {rs : List (Nat × Nat)} {n : Nat} (h : (rangeBits rs).testBit n = false) :
    inRanges rs n = false := by
  refine Bool.eq_false_iff.mpr fun hin => ?_
  rw [testBit_rangeBits.mpr (exists_of_inRanges hin)] at h
  cases h

theorem exists_of_rangeValue? {α : Type} {rs : List (Nat × Nat × α)} {n : Nat} {v : α}
    (h : rangeValue? rs n = some v) : ∃ r ∈ rs, r.1 ≤ n ∧ n ≤ r.2.1 := by
  fun_induction rangeValue? rs n with
  | case1 => cases h
  | case2 => cases h
  | case3 n lo hi v rest hlo hhi => exact ⟨_, List.mem_cons_self, by omega, hhi⟩
  | case4 n lo hi v rest hlo hhi ih =>
    obtain ⟨r, hr, hn⟩ := ih h
    exact ⟨r, List.mem_cons_of_mem _ hr, hn⟩

/-- A range lies before another one. -/
def Before (r s : Nat × Nat) : Prop := r.1 ≤ r.2 ∧ r.2 < s.1

instance : DecidableRel Before := fun r s => inferInstanceAs (Decidable (r.1 ≤ r.2 ∧ r.2 < s.1))

instance : Trans Before Before Before where
  trans h k := ⟨h.1, by have := h.2; have := k.1; have := k.2; omega⟩

/-- In increasing ranges every range is found. -/
theorem inRanges_of_mem {rs : List (Nat × Nat)} (hrs : rs.IsChain Before) {r : Nat × Nat} (hr : r ∈ rs)
    {n : Nat} (hlo : r.1 ≤ n) (hhi : n ≤ r.2) : inRanges rs n = true := by
  induction rs with
  | nil => cases hr
  | cons q rs ih =>
    rcases List.mem_cons.mp hr with rfl | hr
    · rw [inRanges, if_neg (by omega), if_pos hhi]
    · obtain ⟨hq, hqr⟩ := hrs.rel_cons hr
      rw [inRanges, if_neg (by omega), if_neg (by omega)]
      exact ih hrs.tail hr

/-! ## The tables -/

/-- The code points that stand for others, each with the first of them. -/
def firstParts : List (Nat × Nat) :=
  canonicalPairs.map (fun p => (p.1, p.2.1)) ++ canonicalSingletons

/-- The code points whose first part is in a set. -/
def standingOn (bits : Nat) : Nat :=
  rangeBits ((firstParts.filter fun e => bits.testBit e.2).map fun e => (e.1, e.1))

/-- The code points that stand for others. -/
def standing : Nat := rangeBits (firstParts.map fun e => (e.1, e.1))

/-- What the normal form needs of the tables. -/
structure TablesAgree : Prop where
  letters_increasing : letterRanges.IsChain Before
  pairs_increasing : (canonicalPairs.map Prod.fst).IsChain (· < ·)
  singletons_increasing : (canonicalSingletons.map Prod.fst).IsChain (· < ·)
  /-- A letter or a digit is no mark. -/
  marks_apart : (rangeBits letterRanges ||| rangeBits digitRanges) &&&
    rangeBits (combiningRanges.map fun r => (r.1, r.2.1)) = 0
  /-- No chain of first parts is longer than three. -/
  chains_end : standingOn (standingOn (standingOn standing)) = 0
  first_valid : ∀ e ∈ firstParts, e.1.isValidChar ∧ e.2.isValidChar
  /-- Neither the first code points nor those of Hangul stand for others by a table. -/
  first_notHangul : ∀ e ∈ firstParts, isHangul e.1 = false ∧ isHangul e.2 = false ∧
    (0xC0 ≤ e.1 ∧ e.1 < 0x1100 ∨ 0x11C3 ≤ e.1)
  second_whole : ∀ p ∈ canonicalPairs, 0x300 ≤ p.2.2 ∧ p.2.2.isValidChar ∧
    isHangul p.2.2 = false ∧ standing.testBit p.2.2 = false
  /-- The second part of a pair is neither a letter nor a digit. -/
  second_bits : ∀ p ∈ canonicalPairs,
    (rangeBits letterRanges).testBit p.2.2 = false ∧ (rangeBits digitRanges).testBit p.2.2 = false
  /-- A pair is a letter if its first part is one, and both are no digits and no underscores. -/
  pair_bits : ∀ p ∈ canonicalPairs,
    (rangeBits letterRanges).testBit p.1 = (rangeBits letterRanges).testBit p.2.1 ∧
      (rangeBits digitRanges).testBit p.1 = false ∧ (rangeBits digitRanges).testBit p.2.1 = false ∧
        p.1 ≠ 0x5F ∧ p.2.1 ≠ 0x5F
  /-- A code point that stands for one other is a letter if that is one, and both are no digits and
  no underscores. -/
  singleton_bits : ∀ e ∈ canonicalSingletons,
    (rangeBits letterRanges).testBit e.1 = (rangeBits letterRanges).testBit e.2 ∧
      (rangeBits digitRanges).testBit e.1 = false ∧ (rangeBits digitRanges).testBit e.2 = false ∧
        e.1 ≠ 0x5F ∧ e.2 ≠ 0x5F
  /-- What others stand for in the first place goes on with a run only if it is a mark. -/
  first_run : ∀ e ∈ firstParts, (rangeBits runRanges).testBit e.2 = false
  joiner_alone : ∀ p ∈ canonicalPairs, p.2.1 ≠ runJoiner ∧ p.2.2 ≠ runJoiner

-- One declaration for all passes: they are evaluated one after the other, not side by side.
theorem tables_agree : TablesAgree where
  letters_increasing := by decide +kernel
  pairs_increasing := by decide +kernel
  singletons_increasing := by decide +kernel
  marks_apart := by decide +kernel
  chains_end := by decide +kernel
  first_valid := by decide +kernel
  first_notHangul := by decide +kernel
  second_whole := by decide +kernel
  second_bits := by decide +kernel
  pair_bits := by decide +kernel
  singleton_bits := by decide +kernel
  first_run := by decide +kernel
  joiner_alone := by decide +kernel

theorem isLetter_iff {n : Nat} :
    inRanges letterRanges n = true ↔ (rangeBits letterRanges).testBit n = true := by
  rw [testBit_rangeBits]
  constructor
  · exact exists_of_inRanges
  · rintro ⟨r, hr, hlo, hhi⟩
    exact inRanges_of_mem tables_agree.letters_increasing hr hlo hhi

/-- A letter or a digit is no mark. -/
theorem combiningClass_of_inRanges {n : Nat}
    (h : inRanges letterRanges n = true ∨ inRanges digitRanges n = true) : combiningClass n = 0 := by
  have hbit : (rangeBits letterRanges ||| rangeBits digitRanges).testBit n = true := by
    rw [Nat.testBit_or, Bool.or_eq_true, testBit_rangeBits, testBit_rangeBits]
    exact h.imp exists_of_inRanges exists_of_inRanges
  rw [combiningClass]
  split
  · rfl
  cases hclass : rangeValue? combiningRanges n with
  | none => rfl
  | some v =>
    obtain ⟨r, hr, hn⟩ := exists_of_rangeValue? hclass
    have hmark : (rangeBits (combiningRanges.map fun r => (r.1, r.2.1))).testBit n = true :=
      testBit_rangeBits.mpr ⟨_, List.mem_map_of_mem hr, hn⟩
    have hboth := congrArg (Nat.testBit · n) tables_agree.marks_apart
    simp only [Nat.testBit_and, hbit, hmark, Nat.zero_testBit, Bool.and_self] at hboth
    cases hboth

/-! ## Parts -/

theorem canonicalPairs_increasing : (canonicalPairs.map Prod.fst).Pairwise (· < ·) :=
  List.isChain_iff_pairwise.mp tables_agree.pairs_increasing

theorem canonicalSingletons_increasing : (canonicalSingletons.map Prod.fst).Pairwise (· < ·) :=
  List.isChain_iff_pairwise.mp tables_agree.singletons_increasing

/-- How often a code point can be taken apart. -/
def depth (n : Nat) : Nat :=
  (standing.testBit n).toNat + ((standingOn standing).testBit n).toNat +
    ((standingOn (standingOn standing)).testBit n).toNat

theorem depth_le (n : Nat) : depth n ≤ 3 := by
  have hle := Bool.toNat_le (standing.testBit n)
  have hle' := Bool.toNat_le ((standingOn standing).testBit n)
  have hle'' := Bool.toNat_le ((standingOn (standingOn standing)).testBit n)
  unfold depth
  omega

theorem standing_of_standingOn {bits n : Nat} (h : (standingOn bits).testBit n = true) :
    standing.testBit n = true := by
  obtain ⟨r, hr, hn⟩ := testBit_rangeBits.mp h
  obtain ⟨e, he, rfl⟩ := List.mem_map.mp hr
  exact testBit_rangeBits.mpr ⟨_, List.mem_map_of_mem (List.mem_of_mem_filter he), hn⟩

/-- What stands for nothing cannot be taken apart. -/
theorem depth_eq_zero {n : Nat} (h : standing.testBit n = false) : depth n = 0 := by
  have hnone : ∀ bits, (standingOn bits).testBit n = false := by
    intro bits
    refine Bool.eq_false_iff.mpr fun hbit => ?_
    rw [standing_of_standingOn hbit] at h
    cases h
  rw [depth, h, hnone, hnone]
  rfl

theorem depth_eq_zero_of_forall {n : Nat} (h : ∀ e ∈ firstParts, e.1 ≠ n) : depth n = 0 := by
  refine depth_eq_zero (Bool.eq_false_iff.mpr fun hbit => ?_)
  obtain ⟨r, hr, hlo, hhi⟩ := testBit_rangeBits.mp hbit
  obtain ⟨e, he, rfl⟩ := List.mem_map.mp hr
  exact h e he (Nat.le_antisymm hlo hhi)

theorem standingOn_of_firstParts {e : Nat × Nat} (he : e ∈ firstParts) {bits : Nat}
    (h : bits.testBit e.2 = true) : (standingOn bits).testBit e.1 = true :=
  testBit_rangeBits.mpr ⟨_, List.mem_map_of_mem (List.mem_filter.mpr ⟨he, h⟩), Nat.le_refl _, Nat.le_refl _⟩

/-- The first part of a code point can be taken apart less often. -/
theorem depth_firstParts {e : Nat × Nat} (he : e ∈ firstParts) : depth e.2 < depth e.1 := by
  have hhead : standing.testBit e.1 = true :=
    testBit_rangeBits.mpr ⟨_, List.mem_map_of_mem he, Nat.le_refl _, Nat.le_refl _⟩
  have hlast : (standingOn (standingOn standing)).testBit e.2 = false := by
    refine Bool.eq_false_iff.mpr fun hbit => ?_
    have hmore := standingOn_of_firstParts he hbit
    rw [tables_agree.chains_end, Nat.zero_testBit] at hmore
    cases hmore
  have hstep : ∀ bits, (bits.testBit e.2).toNat ≤ ((standingOn bits).testBit e.1).toNat := by
    intro bits
    cases hbit : bits.testBit e.2 with
    | false => exact Nat.zero_le _
    | true => rw [standingOn_of_firstParts he hbit]
  have hone := hstep standing
  have htwo := hstep (standingOn standing)
  rw [depth, depth, hhead, hlast, Bool.toNat_true, Bool.toNat_false]
  omega

end DeclCheck.Text
