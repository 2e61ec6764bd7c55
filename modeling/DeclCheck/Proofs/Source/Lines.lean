import DeclCheck.Proofs.Source.Parts
import DeclCheck.Source.Lines
import Mathlib.Data.List.Infix

/-!
# Offsets and positions

A line stands in a text between the lines before it, which end with a line feed, and a line feed or the end of
the text. An offset is some bytes behind the start of a line, and its position counts the lines before it and
these bytes. Both are 32-bit words, and so are offsets; a count that is one more than an offset wraps only at
the end of a text that is as long as a text can be.
-/
namespace DeclCheck.Lines

open Text

/-! ## Line feeds -/

theorem length_breaksFrom (n : Nat) (t : Text) : (breaksFrom n t).length = t.count newline := by
  induction t generalizing n with
  | nil => rfl
  | cons b t ih =>
    unfold breaksFrom
    split
    · next h => rw [List.length_cons, ih, h, List.count_cons_self]
    · next h => rw [ih, List.count_cons_of_ne h]

theorem breaksFrom_append (n : Nat) (s v : Text) :
    breaksFrom n (s ++ v) = breaksFrom n s ++ breaksFrom (n + s.length) v := by
  induction s generalizing n with
  | nil => rfl
  | cons b s ih =>
    have hlength : n + (b :: s).length = n + 1 + s.length := by
      rw [List.length_cons]
      omega
    rw [List.cons_append, hlength, breaksFrom, breaksFrom, ih]
    split <;> rfl

theorem breaksFrom_of_not_mem (n : Nat) {s : Text} (h : newline ∉ s) : breaksFrom n s = [] := by
  apply List.eq_nil_of_length_eq_zero
  rw [length_breaksFrom, List.count_eq_zero]
  exact h

theorem mem_breaksFrom_bounds {t : Text} {n : Nat} (hn : n + t.length < UInt32.size) {b : UInt32}
    (hb : b ∈ breaksFrom n t) : n ≤ b.toNat ∧ b.toNat < n + t.length := by
  induction t generalizing n with
  | nil => cases hb
  | cons a t ih =>
    rw [List.length_cons] at hn ⊢
    have hrest : b ∈ breaksFrom (n + 1) t → n ≤ b.toNat ∧ b.toNat < n + (t.length + 1) := by
      intro hb
      have := ih (by omega) hb
      omega
    unfold breaksFrom at hb
    split at hb
    · rcases List.mem_cons.mp hb with rfl | hb
      · rw [Nat.toUInt32_eq, UInt32.toNat_ofNat_of_lt' (by omega)]
        omega
      · exact hrest hb
    · exact hrest hb

/-- Of the line feeds of a text those of a front part are before its end. -/
theorem before_breaksFrom {n : Nat} {s v : Text} (h : n + s.length + v.length < UInt32.size) {off : UInt32}
    (hoff : off.toNat = n + s.length) (seen : List UInt32) :
    before off seen (breaksFrom n (s ++ v)) = (breaksFrom n s).reverse ++ seen := by
  induction s generalizing n seen with
  | nil =>
    rw [List.nil_append, breaksFrom, List.reverse_nil, List.nil_append]
    rw [List.length_nil] at h hoff
    cases hbreaks : breaksFrom n v with
    | nil => rfl
    | cons b bs =>
      have hle := (mem_breaksFrom_bounds (by omega) (hbreaks ▸ List.mem_cons_self)).1
      rw [before, if_neg]
      rw [UInt32.lt_iff_toNat_lt]
      omega
  | cons b s ih =>
    rw [List.length_cons] at h hoff
    rw [List.cons_append]
    unfold breaksFrom
    split
    · have hlt : n.toUInt32 < off := by
        rw [UInt32.lt_iff_toNat_lt, Nat.toUInt32_eq, UInt32.toNat_ofNat_of_lt' (by omega)]
        omega
      rw [before, if_pos hlt, ih (by omega) (by omega), List.reverse_cons, List.append_assoc]
      rfl
    · rw [ih (by omega) (by omega)]

/-! ## Line starts -/

/-- A text ends where a line starts: it is empty or has a line feed as its last byte. -/
def AtLineStart (u : Text) : Prop := u = [] ∨ ∃ w, u = w ++ [newline]

/-- What comes before a line feed of a text is longer than what has fewer line feeds. -/
theorem length_le_iff_count_le {t s w : Text} (hs : s <+: t) (hw : w ++ [newline] <+: t) :
    s.length ≤ w.length ↔ s.count newline ≤ w.count newline := by
  constructor
  · intro hle
    have hsw : s <+: w :=
      List.prefix_of_prefix_length_le hs ((List.prefix_append w _).trans hw) hle
    exact hsw.sublist.count_le _
  · intro hle
    by_contra hlt
    have hws : w ++ [newline] <+: s :=
      List.prefix_of_prefix_length_le hw hs (by rw [List.length_append, List.length_singleton]; omega)
    have hcount := hws.sublist.count_le newline
    rw [List.count_append, List.count_singleton_self] at hcount
    omega

/-- No text with as many line feeds ends before a line starts. -/
theorem AtLineStart.length_le {t u s : Text} (h : AtLineStart u) (hu : u <+: t) (hs : s <+: t)
    (hcount : u.count newline = s.count newline) : u.length ≤ s.length := by
  rcases h with rfl | ⟨w, rfl⟩
  · exact Nat.zero_le _
  · rw [List.count_append, List.count_singleton_self] at hcount
    have hlong := mt (length_le_iff_count_le hs hu).mp (by omega)
    rw [List.length_append, List.length_singleton]
    omega

theorem exists_lineStart (s : Text) : ∃ u w, s = u ++ w ∧ AtLineStart u ∧ newline ∉ w := by
  induction s using List.reverseRecOn with
  | nil => exact ⟨[], [], rfl, .inl rfl, List.not_mem_nil⟩
  | append_singleton s b ih =>
    by_cases hb : b = newline
    · exact ⟨s ++ [b], [], (List.append_nil _).symm, .inr ⟨s, by rw [hb]⟩, List.not_mem_nil⟩
    · obtain ⟨u, w, rfl, hu, hw⟩ := ih
      refine ⟨u, w ++ [b], List.append_assoc .., hu, ?_⟩
      simp [hw, Ne.symm hb]

/-! ## Lines -/

/-- The line `l` stands in a text between `u` and `v`. -/
structure Cut (t u l v : Text) : Prop where
  eq : t = u ++ (l ++ v)
  atStart : AtLineStart u
  inside : newline ∉ l
  atStop : v = [] ∨ ∃ w, v = newline :: w

theorem Cut.length_eq {t u l v : Text} (h : Cut t u l v) : t.length = u.length + (l.length + v.length) := by
  rw [h.eq, List.length_append, List.length_append]

theorem exists_line (s : Text) : ∃ l v, s = l ++ v ∧ newline ∉ l ∧ (v = [] ∨ ∃ w, v = newline :: w) := by
  induction s with
  | nil => exact ⟨[], [], rfl, List.not_mem_nil, .inl rfl⟩
  | cons b s ih =>
    by_cases hb : b = newline
    · exact ⟨[], b :: s, rfl, List.not_mem_nil, .inr ⟨s, by rw [hb]⟩⟩
    · obtain ⟨l, v, rfl, hl, hv⟩ := ih
      refine ⟨b :: l, v, rfl, ?_, hv⟩
      simp [hl, Ne.symm hb]

/-- A text is a single line, or a line that is ended by a line feed and more text behind it. -/
theorem lines_induction {motive : Text → Prop} (last : ∀ l, newline ∉ l → motive l)
    (line : ∀ l t, newline ∉ l → motive t → motive (l ++ newline :: t)) (t : Text) : motive t := by
  induction hn : t.length using Nat.strongRecOn generalizing t with
  | ind n ih =>
    subst hn
    obtain ⟨l, v, rfl, hl, hv⟩ := exists_line t
    rcases hv with rfl | ⟨w, rfl⟩
    · rw [List.append_nil]
      exact last l hl
    · refine line l w hl (ih w.length ?_ w rfl)
      simp only [List.length_append, List.length_cons]
      omega

theorem splitOn_line {l : Text} (h : newline ∉ l) (t : Text) :
    splitOn newline (l ++ newline :: t) = l :: splitOn newline t := by
  rw [splitOn_append, splitOn_of_not_mem h, List.singleton_append]

theorem count_line {l : Text} (h : newline ∉ l) (t : Text) :
    (l ++ newline :: t).count newline = t.count newline + 1 := by
  rw [List.count_append, List.count_eq_zero.mpr h, List.count_cons_self, Nat.zero_add]

/-- The pieces between line feeds are the lines. -/
theorem splitOn_getElem? {t : Text} {k : Nat} {l : Text} (h : (splitOn newline t)[k]? = some l) :
    ∃ u v, Cut t u l v ∧ u.count newline = k := by
  induction t using lines_induction generalizing k with
  | last first hfirst =>
    rw [splitOn_of_not_mem hfirst] at h
    cases k with
    | zero =>
      cases h
      exact ⟨[], [], ⟨(List.append_nil _).symm, .inl rfl, hfirst, .inl rfl⟩, rfl⟩
    | succ k => cases h
  | line first w hfirst ih =>
    rw [splitOn_line hfirst] at h
    cases k with
    | zero =>
      cases h
      exact ⟨[], newline :: w, ⟨rfl, .inl rfl, hfirst, .inr ⟨w, rfl⟩⟩, rfl⟩
    | succ k =>
      obtain ⟨u, v, hcut, hcount⟩ := ih h
      refine ⟨first ++ newline :: u, v, ⟨?_, .inr ?_, hcut.inside, hcut.atStop⟩, ?_⟩
      · rw [hcut.eq, List.append_assoc, List.cons_append]
      · rcases hcut.atStart with rfl | ⟨x, rfl⟩
        · exact ⟨first, rfl⟩
        · exact ⟨first ++ newline :: x, by simp⟩
      · rw [count_line hfirst, hcount]

theorem length_splitOn (t : Text) : (splitOn newline t).length = t.count newline + 1 := by
  induction t using lines_induction with
  | last l hl => rw [splitOn_of_not_mem hl, List.count_eq_zero.mpr hl, List.length_singleton]
  | line l t hl ih => rw [splitOn_line hl, List.length_cons, ih, count_line hl]

theorem exists_cut {t : Text} {k : Nat} (h : k ≤ t.count newline) :
    ∃ u l v, Cut t u l v ∧ u.count newline = k := by
  have hk : k < (splitOn newline t).length := by
    rw [length_splitOn]
    omega
  obtain ⟨u, v, hcut⟩ := splitOn_getElem? (List.getElem?_eq_getElem hk)
  exact ⟨u, _, v, hcut⟩

section Cuts

variable {t u l v : Text} (h : Cut t u l v)
include h

theorem Cut.start?_eq {line : UInt32} (hline : line.toNat = u.count newline + 1) :
    start? (breaks t) line = some u.length.toUInt32 := by
  have hne : line ≠ 0 := by
    rintro rfl
    cases hline
  rw [start?, if_neg hne]
  rcases h.atStart with rfl | ⟨w, rfl⟩
  · rw [if_pos (UInt32.toNat_inj.mp hline)]
    rfl
  · have hone : line ≠ 1 := by
      rintro rfl
      simp at hline
    have hindex : line.toNat - 2 = (breaksFrom 0 w).length := by
      rw [hline, length_breaksFrom, List.count_append, List.count_singleton_self]
      omega
    rw [if_neg hone, hindex, h.eq, breaks, List.append_assoc, breaksFrom_append, Nat.zero_add,
      List.getElem?_append_right (Nat.le_refl _), Nat.sub_self, List.singleton_append, breaksFrom, if_pos rfl]
    rw [List.length_append]
    simp

theorem Cut.stop_eq {line : UInt32} (hline : line.toNat = u.count newline + 1) :
    stop (breaks t) t.length.toUInt32 line = (u.length + l.length).toUInt32 := by
  have hindex : line.toNat - 1 = (breaksFrom 0 (u ++ l)).length := by
    rw [hline, length_breaksFrom, List.count_append, List.count_eq_zero.mpr h.inside]
    omega
  rw [stop, hindex, h.eq, breaks, ← List.append_assoc, breaksFrom_append,
    List.getElem?_append_right (Nat.le_refl _), Nat.sub_self, Nat.zero_add, List.length_append, List.length_append]
  rcases h.atStop with rfl | ⟨w, rfl⟩
  · rw [breaksFrom, List.length_append, List.length_nil]
    rfl
  · rw [breaksFrom, if_pos rfl]
    rfl

/-- A column is counted from the start of its line and cut at the end of it, unless the sum of start and column
is no word. It then starts over from zero, which is before the line. -/
theorem Cut.offset_toNat (ht : t.length < UInt32.size) {pos : LineCol}
    (hline : pos.line.toNat = u.count newline + 1) :
    (offset (breaks t) t.length.toUInt32 pos).toNat =
      if u.length + (pos.col.toNat - 1) < UInt32.size then u.length + min (pos.col.toNat - 1) l.length
      else u.length + (pos.col.toNat - 1) - UInt32.size := by
  have hword : UInt32.size = 4294967296 := rfl
  have hlength := h.length_eq
  have hne : pos.line ≠ 0 := by
    intro hzero
    rw [hzero] at hline
    cases hline
  have hend : (u.length + l.length).toUInt32.toNat = u.length + l.length := UInt32.toNat_ofNat_of_lt' (by omega)
  -- A column of zero is taken for the first one.
  have hcol : (if pos.col = 0 then 1 else pos.col).toNat = pos.col.toNat - 1 + 1 := by
    split
    · next hzero => simp [hzero]
    · next hcol =>
      have hpos : pos.col.toNat ≠ 0 := fun hzero => hcol (UInt32.toNat_inj.mp hzero)
      omega
  rw [offset, if_neg hne, h.start?_eq hline]
  simp only [h.stop_eq hline]
  generalize (if pos.col = 0 then 1 else pos.col) = col at hcol
  have hoff : (u.length.toUInt32 + col - 1).toNat = (u.length + (pos.col.toNat - 1)) % 4294967296 := by
    rw [UInt32.toNat_sub, UInt32.toNat_add, hcol, Nat.toUInt32_eq, UInt32.toNat_ofNat_of_lt' (by omega)]
    simp only [UInt32.toNat_one]
    omega
  have hbound : pos.col.toNat < UInt32.size := pos.col.toNat_lt
  rw [apply_ite UInt32.toNat, hend, hoff]
  simp only [UInt32.lt_iff_toNat_lt, hend, hoff]
  split <;> split <;> omega

theorem Cut.offset_eq (ht : t.length < UInt32.size) {pos : LineCol}
    (hline : pos.line.toNat = u.count newline + 1) (hcol : pos.col ≠ 0)
    (hwrap : u.length + pos.col.toNat ≤ UInt32.size) :
    (offset (breaks t) t.length.toUInt32 pos).toNat = u.length + min (pos.col.toNat - 1) l.length := by
  have hpos : pos.col.toNat ≠ 0 := fun hzero => hcol (UInt32.toNat_inj.mp hzero)
  rw [h.offset_toNat ht hline, if_pos (by omega)]

theorem Cut.line_eq (ht : t.length < UInt32.size) {n : UInt32} (hn : n.toNat = u.count newline + 1) :
    line t (breaks t) n = l := by
  have hlength := h.length_eq
  have hfirst : u.length.toUInt32.toNat = u.length := UInt32.toNat_ofNat_of_lt' (by omega)
  have hlast : (u.length + l.length).toUInt32.toNat = u.length + l.length := UInt32.toNat_ofNat_of_lt' (by omega)
  have hle : ¬ (u.length + l.length).toUInt32 < u.length.toUInt32 := by
    rw [UInt32.lt_iff_toNat_lt, hfirst, hlast]
    omega
  rw [line, h.start?_eq hn]
  simp only [h.stop_eq hn]
  rw [if_neg hle, hfirst, hlast, Nat.add_sub_cancel_left, h.eq, List.drop_left, List.take_left]

end Cuts

theorem start?_of_no_line {t : Text} {n : UInt32} (h : t.count newline + 1 < n.toNat) :
    start? (breaks t) n = none := by
  have hne : n ≠ 0 := by
    rintro rfl
    exact Nat.not_lt_zero _ h
  have hone : n ≠ 1 := by
    rintro rfl
    exact Nat.not_lt_zero _ (Nat.lt_of_add_lt_add_right h)
  rw [start?, if_neg hne, if_neg hone, breaks, List.getElem?_eq_none]
  · rfl
  · rw [length_breaksFrom]
    omega

theorem offset_of_no_line {t : Text} {pos : LineCol} (h : t.count newline + 1 < pos.line.toNat) :
    offset (breaks t) t.length.toUInt32 pos = t.length.toUInt32 := by
  have hne : pos.line ≠ 0 := by
    intro hzero
    rw [hzero] at h
    exact Nat.not_lt_zero _ h
  rw [offset, if_neg hne, start?_of_no_line h]

theorem line_of_no_line {t : Text} {n : UInt32} (h : t.count newline + 1 < n.toNat) :
    line t (breaks t) n = [] := by
  rw [line, start?_of_no_line h]

/-! ## Positions -/

/-- An offset is the bytes `w` behind the start of its line. -/
structure Stands (t : Text) (off : Nat) (u w : Text) : Prop where
  front : u ++ w <+: t
  length : off = u.length + w.length
  atStart : AtLineStart u
  inside : newline ∉ w

theorem exists_stands {t : Text} {off : Nat} (h : off ≤ t.length) : ∃ u w, Stands t off u w := by
  obtain ⟨u, w, heq, hu, hw⟩ := exists_lineStart (t.take off)
  refine ⟨u, w, heq ▸ List.take_prefix off t, ?_, hu, hw⟩
  rw [← List.length_append, ← heq, List.length_take, Nat.min_eq_left h]

section Standing

variable {t u w : Text} {off : Nat} (h : Stands t off u w)
include h

theorem Stands.position_eq (ht : t.length < UInt32.size) {o : UInt32} (ho : o.toNat = off) :
    position (breaks t) o = ⟨(u.count newline + 1).toUInt32, (w.length + 1).toUInt32⟩ := by
  obtain ⟨v, hv⟩ := h.front
  have hlength := congrArg List.length hv
  rw [List.length_append, List.length_append] at hlength
  have hseen : before o [] (breaks t) = (breaksFrom 0 u).reverse := by
    rw [← hv, breaks, before_breaksFrom (by rw [List.length_append]; omega)
      (by rw [ho, h.length, List.length_append, Nat.zero_add]), breaksFrom_append,
      breaksFrom_of_not_mem _ h.inside, List.append_nil, List.append_nil]
  have hcol : ∀ start : UInt32, start.toNat = u.length → o - start + 1 = (w.length + 1).toUInt32 := by
    intro start hstart
    have hle : start ≤ o := by
      rw [UInt32.le_iff_toNat_le, hstart, ho, h.length]
      omega
    have hbytes : o - start = w.length.toUInt32 := by
      rw [← UInt32.toNat_inj, UInt32.toNat_sub_of_le _ _ hle, hstart, ho, h.length, Nat.toUInt32_eq,
        UInt32.toNat_ofNat_of_lt' (by omega)]
      omega
    rw [hbytes]
    simp
  simp only [position, hseen, List.length_reverse, length_breaksFrom]
  rcases h.atStart with rfl | ⟨x, rfl⟩
  · rw [breaksFrom, List.reverse_nil, hcol 0 rfl]
  · rw [breaksFrom_append, breaksFrom, if_pos rfl, breaksFrom, List.reverse_append, List.reverse_singleton,
      List.singleton_append]
    dsimp only
    rw [hcol _ ?_]
    rw [List.length_append, List.length_singleton] at hlength
    have hword : UInt32.size = 4294967296 := rfl
    rw [UInt32.toNat_add, Nat.toUInt32_eq, UInt32.toNat_ofNat_of_lt' (by omega), List.length_append,
      List.length_singleton, Nat.zero_add, UInt32.toNat_one]
    exact Nat.mod_eq_of_lt (by omega)

theorem Stands.exists_cut : ∃ v' v, Cut t u (w ++ v') v := by
  obtain ⟨v, hv⟩ := h.front
  obtain ⟨v', rest, rfl, hv', hrest⟩ := exists_line v
  refine ⟨v', rest, ?_, h.atStart, ?_, hrest⟩
  · rw [← hv]
    simp only [List.append_assoc]
  · simp [h.inside, hv']

theorem Stands.le_length : u.length + w.length ≤ t.length := by
  rw [← List.length_append]
  exact h.front.length_le

end Standing

/-- The line or the column of an offset is one more than the largest word. -/
def Wraps (t : Text) (off : UInt32) : Prop :=
  off.toNat + 1 = UInt32.size ∧ (newline ∉ t ∨ ∀ b ∈ t, b = newline)

section Wrapping

variable {t u w : Text} {o : UInt32} (ht : t.length < UInt32.size) (h : Stands t o.toNat u w)
include ht h

theorem Stands.fits (hnot : ¬ Wraps t o) : u.count newline + 1 < UInt32.size ∧ w.length + 1 < UInt32.size := by
  have hlength := h.length
  have hle := h.le_length
  have hcount := List.count_le_length (l := u) (a := newline)
  constructor
  · -- Otherwise the text has no room but for the line feeds.
    by_contra hmore
    have hwhole : u = t := by
      have hfront : u <+: t := (List.prefix_append u w).trans h.front
      exact hfront.eq_of_length (by omega)
    have hall : u.count newline = u.length := by omega
    rw [hwhole, List.count_eq_length] at hall
    exact hnot ⟨by omega, .inr fun b hb => (hall b hb).symm⟩
  · by_contra hmore
    have hwhole : u ++ w = t := h.front.eq_of_length (by rw [List.length_append]; omega)
    have hu : u = [] := List.eq_nil_of_length_eq_zero (by omega)
    refine hnot ⟨by omega, .inl ?_⟩
    rw [← hwhole, hu, List.nil_append]
    exact h.inside

theorem Stands.position_of_wraps (hwraps : Wraps t o) :
    position (breaks t) o = ⟨1, 0⟩ ∨ position (breaks t) o = ⟨0, 1⟩ := by
  obtain ⟨hlast, hbytes⟩ := hwraps
  have hlength := h.length
  have hle := h.le_length
  have hzero : UInt32.size.toUInt32 = 0 := rfl
  rw [h.position_eq ht rfl]
  rcases hbytes with hnone | hall
  · have hu : u = [] := by
      rcases h.atStart with hu | ⟨x, rfl⟩
      · exact hu
      · refine (hnone (h.front.subset ?_)).elim
        simp
    subst hu
    rw [List.length_nil, Nat.zero_add] at hlength
    left
    rw [← hlength, hlast, hzero]
    rfl
  · have hw : w = [] := by
      cases w with
      | nil => rfl
      | cons b w =>
        have hb : b = newline := hall b (h.front.subset (by simp))
        exact (h.inside (hb ▸ List.mem_cons_self)).elim
    subst hw
    have hcount : u.count newline = u.length :=
      List.count_eq_length.mpr fun b hb => (hall b (h.front.subset (by simpa using hb))).symm
    rw [List.length_nil, Nat.add_zero] at hlength
    right
    rw [hcount, ← hlength, hlast, hzero]
    rfl

end Wrapping

/-- A position on a line of the text: at one of its bytes, or right behind the last. -/
def On (t : Text) (pos : LineCol) : Prop :=
  1 ≤ pos.line.toNat ∧ 1 ≤ pos.col.toNat ∧
    ∃ l, (splitOn newline t)[pos.line.toNat - 1]? = some l ∧ pos.col.toNat ≤ l.length + 1

/-- The order of positions: by line, then by column. -/
def Precedes (p q : LineCol) : Prop := p.line < q.line ∨ p.line = q.line ∧ p.col < q.col

theorem offset_columnZero (bs : List UInt32) (size : UInt32) : offset bs size ⟨1, 0⟩ = 0 := by
  have hnot : ¬ stop bs size 1 < 0 := UInt32.not_lt_zero
  simp [offset, start?, hnot]

/-- An offset that is further on is on a later line, or on the same line and further from its start. -/
theorem Stands.lex {t : Text} {o o' : Nat} {u w u' w' : Text} (h : Stands t o u w) (h' : Stands t o' u' w')
    (hlt : o < o') :
    u.count newline < u'.count newline ∨ u.count newline = u'.count newline ∧ w.length < w'.length := by
  have hfront : u ++ w <+: u' ++ w' := by
    apply List.prefix_of_prefix_length_le h.front h'.front
    rw [List.length_append, List.length_append, ← h.length, ← h'.length]
    exact hlt.le
  have hcount := hfront.sublist.count_le newline
  rw [List.count_append, List.count_append, List.count_eq_zero.mpr h.inside,
    List.count_eq_zero.mpr h'.inside] at hcount
  rcases Nat.lt_or_eq_of_le hcount with hmore | hsame
  · exact .inl hmore
  · right
    have hu : u <+: t := (List.prefix_append u w).trans h.front
    have hu' : u' <+: t := (List.prefix_append u' w').trans h'.front
    have hlength := h.atStart.length_le hu hu' hsame
    have hlength' := h'.atStart.length_le hu' hu hsame.symm
    have := h.length
    have := h'.length
    exact ⟨hsame, by omega⟩

section Inverse

variable {t : Text} (ht : t.length < UInt32.size)
include ht

theorem offset_position_iff {o : UInt32} (ho : o.toNat ≤ t.length) :
    offset (breaks t) t.length.toUInt32 (position (breaks t) o) = o ↔ ¬ Wraps t o := by
  obtain ⟨u, w, h⟩ := exists_stands ho
  constructor
  · intro heq hwraps
    have hzero : o = 0 := by
      rcases h.position_of_wraps ht hwraps with hpos | hpos
      · rw [hpos, offset_columnZero] at heq
        exact heq.symm
      · rw [hpos, offset, if_pos rfl] at heq
        exact heq.symm
    rw [hzero] at hwraps
    cases hwraps.1
  · intro hnot
    obtain ⟨hline, hcol⟩ := h.fits ht hnot
    obtain ⟨v', v, hcut⟩ := h.exists_cut
    have hlength := h.length
    have hle := h.le_length
    have hcolumn : (w.length + 1).toUInt32.toNat = w.length + 1 := UInt32.toNat_ofNat_of_lt' hcol
    have hne : (w.length + 1).toUInt32 ≠ 0 := by
      intro hzero
      rw [hzero] at hcolumn
      cases hcolumn
    rw [h.position_eq ht rfl, ← UInt32.toNat_inj, hcut.offset_eq ht (UInt32.toNat_ofNat_of_lt' hline) hne,
      hcolumn, List.length_append, hlength]
    · omega
    · rw [hcolumn]
      omega

theorem position_offset {pos : LineCol} (hpos : On t pos) :
    position (breaks t) (offset (breaks t) t.length.toUInt32 pos) = pos := by
  obtain ⟨hline, hcol, l, hl, hle⟩ := hpos
  obtain ⟨u, v, hcut, hcount⟩ := splitOn_getElem? hl
  have hlength := hcut.length_eq
  have hnumber : pos.line.toNat = u.count newline + 1 := by omega
  have hne : pos.col ≠ 0 := by
    intro hzero
    rw [hzero] at hcol
    cases hcol
  have hoffset := hcut.offset_eq ht hnumber hne (by omega)
  rw [Nat.min_eq_left (by omega)] at hoffset
  have hstands : Stands t (u.length + (pos.col.toNat - 1)) u (l.take (pos.col.toNat - 1)) := by
    refine ⟨?_, ?_, hcut.atStart, fun hmem => hcut.inside (List.mem_of_mem_take hmem)⟩
    · rw [hcut.eq, List.prefix_append_right_inj]
      exact (List.take_prefix _ l).trans (List.prefix_append l v)
    · rw [List.length_take]
      omega
  rw [hstands.position_eq ht hoffset, List.length_take, Nat.min_eq_left (by omega), Nat.sub_add_cancel hcol,
    ← hnumber]
  simp

theorem position_precedes_iff {o o' : UInt32} (hlt : o < o') (ho' : o'.toNat ≤ t.length) :
    Precedes (position (breaks t) o) (position (breaks t) o') ↔ ¬ Wraps t o' := by
  rw [UInt32.lt_iff_toNat_lt] at hlt
  obtain ⟨u, w, h⟩ := exists_stands (hlt.le.trans ho')
  obtain ⟨u', w', h'⟩ := exists_stands ho'
  have hnot : ¬ Wraps t o := by
    rintro ⟨hlast, _⟩
    omega
  obtain ⟨hline, hcol⟩ := h.fits ht hnot
  rw [Precedes, h.position_eq ht rfl, UInt32.lt_iff_toNat_lt, UInt32.lt_iff_toNat_lt, ← UInt32.toNat_inj,
    Nat.toUInt32_eq, Nat.toUInt32_eq, UInt32.toNat_ofNat_of_lt' hline, UInt32.toNat_ofNat_of_lt' hcol]
  constructor
  · intro hprecedes hwraps
    rcases h'.position_of_wraps ht hwraps with hpos | hpos <;> rw [hpos] at hprecedes <;> simp at hprecedes
  · intro hnot'
    obtain ⟨hline', hcol'⟩ := h'.fits ht hnot'
    rw [h'.position_eq ht rfl, Nat.toUInt32_eq, Nat.toUInt32_eq, UInt32.toNat_ofNat_of_lt' hline',
      UInt32.toNat_ofNat_of_lt' hcol']
    have := h.lex h' hlt
    omega

end Inverse

/-- Offsets and positions of a text undo each other and have the same order. The only offset without a position
of its own is the end of a text that is as long as a text can be, if it is a single line or has only line
feeds: its column or its line is then no word. -/
theorem offsets_positions_inverse (t : Text) (ht : t.length < UInt32.size) :
    (∀ o : UInt32, o.toNat ≤ t.length →
      (offset (breaks t) t.length.toUInt32 (position (breaks t) o) = o ↔ ¬ Wraps t o)) ∧
    (∀ pos, On t pos → position (breaks t) (offset (breaks t) t.length.toUInt32 pos) = pos) ∧
    (∀ o o' : UInt32, o < o' → o'.toNat ≤ t.length →
      (Precedes (position (breaks t) o) (position (breaks t) o') ↔ ¬ Wraps t o')) :=
  ⟨fun _ ho => offset_position_iff ht ho, fun _ hpos => position_offset ht hpos,
    fun _ _ hlt ho' => position_precedes_iff ht hlt ho'⟩

theorem offsets_positions_inverse_emptyLine :
    let t : Text := [97, 98, newline, newline, 99]
    t.length < UInt32.size ∧ offset (breaks t) t.length.toUInt32 (position (breaks t) 3) = 3 ∧
      position (breaks t) (offset (breaks t) t.length.toUInt32 ⟨2, 1⟩) = ⟨2, 1⟩ ∧
      Precedes (position (breaks t) 2) (position (breaks t) 3) := by
  obtain ⟨hoffset, hposition, hprecedes⟩ :=
    offsets_positions_inverse [97, 98, newline, newline, 99] (by decide)
  have hnot : ¬ Wraps [97, 98, newline, newline, 99] 3 := fun hwraps => absurd hwraps.1 (by decide)
  exact ⟨by decide, (hoffset 3 (by decide)).mpr hnot, hposition ⟨2, 1⟩ ⟨by decide, by decide, [], rfl, by decide⟩,
    (hprecedes 2 3 (by decide) (by decide)).mpr hnot⟩

/-- A text of the largest size without a line feed has an offset that its position does not lead back to. -/
theorem longestLine_end_not_inverse : ¬ ∀ t : Text, t.length < UInt32.size →
    (∀ o : UInt32, o.toNat ≤ t.length →
      offset (breaks t) t.length.toUInt32 (position (breaks t) o) = o) ∧
    (∀ pos, On t pos → position (breaks t) (offset (breaks t) t.length.toUInt32 pos) = pos) ∧
    (∀ o o' : UInt32, o < o' → o'.toNat ≤ t.length →
      Precedes (position (breaks t) o) (position (breaks t) o')) := by
  intro h
  obtain ⟨t, ht⟩ : ∃ t, t = List.replicate (UInt32.size - 1) (97 : UInt8) := ⟨_, rfl⟩
  have hlength : t.length = UInt32.size - 1 := by rw [ht, List.length_replicate]
  have hword : (4294967295 : UInt32).toNat = UInt32.size - 1 := rfl
  have hwraps : Wraps t 4294967295 := by
    refine ⟨rfl, .inl fun hmem => ?_⟩
    rw [ht] at hmem
    exact absurd (List.eq_of_mem_replicate hmem) (by decide)
  have hshort : t.length < UInt32.size := by
    rw [hlength]
    exact Nat.sub_lt (by decide) Nat.one_pos
  have hend : (4294967295 : UInt32).toNat ≤ t.length := (hword.trans hlength.symm).le
  exact (offset_position_iff hshort hend).mp ((h t hshort).1 _ hend) hwraps

/-! ## Columns behind the end of a line -/

/-- A text with a line feed at its end is its lines with a line feed each. -/
theorem flatMap_splitOn (t : Text) : (splitOn newline t).flatMap (· ++ [newline]) = t ++ [newline] := by
  induction t using lines_induction with
  | last l hl => rw [splitOn_of_not_mem hl, List.flatMap_singleton]
  | line l t hl ih =>
    rw [splitOn_line hl, List.flatMap_cons, ih]
    simp

/-- The number of bytes before a line, with the line feeds of the lines before it. -/
def lineStart (t : Text) (line : Nat) : Nat :=
  (((splitOn newline t).take (line - 1)).flatMap (· ++ [newline])).length

theorem Cut.lineStart_eq {t u l v : Text} (h : Cut t u l v) : lineStart t (u.count newline + 1) = u.length := by
  rw [lineStart, Nat.add_sub_cancel, h.eq]
  rcases h.atStart with rfl | ⟨w, rfl⟩
  · rfl
  · have hcount : (w ++ [newline]).count newline = (splitOn newline w).length := by
      rw [length_splitOn, List.count_append, List.count_singleton_self]
    rw [hcount, List.append_assoc, List.singleton_append, splitOn_append, List.take_left, flatMap_splitOn]

/-- A position on no line is the end of the text. On a line, the column is counted from the start of the line
and cut at its end exactly if the sum is a word; a sum that is none starts over from zero, and the offset is
then before the line. -/
theorem offset_clamped_iff (t : Text) (ht : t.length < UInt32.size) (pos : LineCol) (hpos : 1 ≤ pos.line) :
    let off := (offset (breaks t) t.length.toUInt32 pos).toNat
    let start := lineStart t pos.line.toNat
    let behind := max pos.col.toNat 1 - 1
    ((splitOn newline t)[pos.line.toNat - 1]? = none → off = t.length) ∧
    ∀ l, (splitOn newline t)[pos.line.toNat - 1]? = some l →
      (off = start + min behind l.length ↔ start + behind < UInt32.size) ∧
      (start ≤ off ∧ off ≤ start + l.length ↔ start + behind < UInt32.size) ∧
      (UInt32.size ≤ start + behind → off + UInt32.size = start + behind) := by
  intro off start behind
  have hone : 1 ≤ pos.line.toNat := hpos
  constructor
  · intro hnone
    rw [List.getElem?_eq_none_iff, length_splitOn] at hnone
    have hoff : offset (breaks t) t.length.toUInt32 pos = t.length.toUInt32 := offset_of_no_line (by omega)
    simp only [off, hoff, Nat.toUInt32_eq]
    exact UInt32.toNat_ofNat_of_lt' ht
  · intro l hl
    obtain ⟨u, v, hcut, hcount⟩ := splitOn_getElem? hl
    have hline : pos.line.toNat = u.count newline + 1 := by omega
    have hstart : start = u.length := by rw [← hcut.lineStart_eq, ← hline]
    have hbehind : behind = pos.col.toNat - 1 := by omega
    have hoff := hcut.offset_toNat ht hline
    have hcol : pos.col.toNat < UInt32.size := pos.col.toNat_lt
    change off = _ at hoff
    rw [← hstart, ← hbehind] at hoff
    split at hoff <;> omega

theorem lastColumn_before_line :
    let t : Text := [97, newline, 98]
    t.length < UInt32.size ∧ (splitOn newline t)[1]? = some [98] ∧ lineStart t 2 = 2 ∧
      (offset (breaks t) t.length.toUInt32 ⟨2, 4294967295⟩).toNat = 0 := by
  obtain ⟨_, hline⟩ := offset_clamped_iff [97, newline, 98] (by decide) ⟨2, 4294967295⟩ (by decide)
  obtain ⟨_, _, hwraps⟩ := hline [98] rfl
  have hsum := hwraps (by decide)
  refine ⟨by decide, rfl, rfl, ?_⟩
  exact Nat.add_right_cancel (hsum.trans (Nat.zero_add _).symm)

end DeclCheck.Lines
