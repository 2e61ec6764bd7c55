import DeclCheck.Proofs.Render.Bounds
import DeclCheck.Proofs.Text.Columns

/-!
# The marker of a span

A snippet shows the line that a span starts on and a marker below it. On a line of plain text the marker is below
the bytes of the span that are on this line, with two exceptions. A span that ends on an earlier line has none there,
and the marker goes to the end of the line as if the span ended on a later one. The column of the largest offset in
a text of one line is no word, and counts as the first.
-/
namespace DeclCheck

namespace Lines

open Text

/-- An offset belongs to the line `l` between `u` and `v`: to one of its bytes, to its line feed or, if it is the
last line, to whatever is behind it. -/
structure Holds (u l v : Text) (off : Nat) : Prop where
  start_le : u.length ≤ off
  le_stop : off ≤ u.length + l.length ∨ v = []

theorem exists_holds (t : Text) (off : Nat) : ∃ u l v, Cut t u l v ∧ Holds u l v off := by
  by_cases hoff : off ≤ t.length
  · obtain ⟨u, w, hstands⟩ := exists_stands hoff
    obtain ⟨w', v, hcut⟩ := hstands.exists_cut
    have hlength := hstands.length
    refine ⟨u, w ++ w', v, hcut, by omega, .inl ?_⟩
    rw [List.length_append]
    omega
  · obtain ⟨u, w, hstands⟩ := exists_stands (Nat.le_refl t.length)
    obtain ⟨w', v, hcut⟩ := hstands.exists_cut
    have hlength := hstands.length
    have hcutlength := hcut.length_eq
    rw [List.length_append] at hcutlength
    exact ⟨u, w ++ w', v, hcut, by omega, .inr (List.eq_nil_of_length_eq_zero (by omega))⟩

section Cuts

variable {t u l v : Text} (h : Cut t u l v)
include h

theorem Cut.take_eq {off : Nat} (hoff : Holds u l v off) : t.take off = u ++ l.take (off - u.length) := by
  rw [h.eq, List.take_append, List.take_of_length_le hoff.start_le]
  rcases hoff.le_stop with hle | rfl
  · rw [List.take_append_of_le_length (by omega)]
  · rw [List.append_nil]

theorem Cut.count_take {off : Nat} (hoff : Holds u l v off) : (t.take off).count newline = u.count newline := by
  have hinside : newline ∉ l.take (off - u.length) := fun hmem => h.inside (List.mem_of_mem_take hmem)
  rw [h.take_eq hoff, List.count_append, List.count_eq_zero.mpr hinside, Nat.add_zero]

theorem Cut.position_eq (ht : t.length < UInt32.size) {o : UInt32} (ho : Holds u l v o.toNat) :
    position (breaks t) o = ⟨(u.count newline + 1).toUInt32, (o.toNat - u.length + 1).toUInt32⟩ := by
  have hstart := ho.start_le
  by_cases hoff : o.toNat ≤ t.length
  · have hstands : Stands t o.toNat u (l.take (o.toNat - u.length)) := by
      have htake := h.take_eq ho
      have hlength := congrArg List.length htake
      rw [List.length_take, List.length_append] at hlength
      exact ⟨htake ▸ List.take_prefix .., by omega, h.atStart, fun hmem => h.inside (List.mem_of_mem_take hmem)⟩
    have hlength := hstands.length
    rw [hstands.position_eq ht rfl]
    congr 2
    omega
  · -- An offset past the end has the position that it would have if the last line went on up to it.
    have hword : o.toNat < UInt32.size := o.toNat_lt
    have hlength := h.length_eq
    have hv : v = [] := ho.le_stop.resolve_left (by omega)
    have hrest : newline ∉ List.replicate (o.toNat - t.length) space := by
      intro hmem
      have := List.eq_of_mem_replicate hmem
      contradiction
    have hbreaks : breaks (t ++ List.replicate (o.toNat - t.length) space) = breaks t := by
      rw [breaks, breaksFrom_append, breaksFrom_of_not_mem _ hrest, List.append_nil, breaks]
    have hstands : Stands (t ++ List.replicate (o.toNat - t.length) space) o.toNat u
        (l ++ List.replicate (o.toNat - t.length) space) := by
      refine ⟨?_, ?_, h.atStart, ?_⟩
      · rw [h.eq, hv, List.append_nil, List.append_assoc]
      · rw [List.length_append, List.length_replicate]
        rw [hv, List.length_nil] at hlength
        omega
      · rw [List.mem_append, not_or]
        exact ⟨h.inside, hrest⟩
    have hmore := hstands.length
    rw [← hbreaks, hstands.position_eq (by rw [List.length_append, List.length_replicate]; omega) rfl]
    congr 2
    omega

theorem Cut.count_lt {off : Nat} (hoff : off < u.length) : (t.take off).count newline < u.count newline := by
  rcases h.atStart with rfl | ⟨w, rfl⟩
  · exact absurd hoff (Nat.not_lt_zero _)
  · have hw : w ++ [newline] <+: t := h.eq ▸ List.prefix_append ..
    have hle := (length_le_iff_count_le (List.take_prefix off t) hw).mp (by
      rw [List.length_append, List.length_singleton] at hoff
      rw [List.length_take]
      omega)
    rw [List.count_append, List.count_singleton_self]
    omega

theorem Cut.lt_count {off : Nat} (hoff : u.length + l.length < off) (hv : v ≠ []) :
    u.count newline < (t.take off).count newline := by
  obtain ⟨w, rfl⟩ := h.atStop.resolve_left hv
  have hlength := h.length_eq
  rw [List.length_cons] at hlength
  have hl : (u ++ l) ++ [newline] <+: t := ⟨w, by rw [h.eq]; simp⟩
  have hle := mt (length_le_iff_count_le (List.take_prefix off t) hl).mpr (by
    rw [List.length_take, List.length_append]
    omega)
  rw [List.count_append, List.count_eq_zero.mpr h.inside] at hle
  omega

/-- The line of an offset is the one it belongs to. -/
theorem Cut.holds_iff_count {off : Nat} : Holds u l v off ↔ (t.take off).count newline = u.count newline := by
  constructor
  · exact h.count_take
  · intro hcount
    have hstart : u.length ≤ off := by
      by_contra hlt
      have := h.count_lt (Nat.not_le.mp hlt)
      omega
    refine ⟨hstart, ?_⟩
    by_contra hnot
    rw [not_or] at hnot
    have := h.lt_count (Nat.not_le.mp hnot.1) hnot.2
    omega

/-- On a line with bytes in it, only the largest offset wraps, and only if there is no other line. -/
theorem Cut.wraps_iff (hl : l ≠ []) {o : UInt32} : Wraps t o ↔ o.toNat + 1 = UInt32.size ∧ u = [] ∧ v = [] := by
  have hnone : newline ∉ t ↔ u = [] ∧ v = [] := by
    rw [h.eq, List.mem_append, List.mem_append, not_or, not_or]
    constructor
    · rintro ⟨hu, -, hv⟩
      constructor
      · rcases h.atStart with rfl | ⟨w, rfl⟩
        · rfl
        · simp at hu
      · rcases h.atStop with rfl | ⟨w, rfl⟩
        · rfl
        · simp at hv
    · rintro ⟨rfl, rfl⟩
      exact ⟨List.not_mem_nil, h.inside, List.not_mem_nil⟩
  have hsome : ¬ ∀ b ∈ t, b = newline := by
    intro hall
    obtain ⟨b, l', rfl⟩ := List.exists_cons_of_ne_nil hl
    have hb := hall b (by rw [h.eq]; simp)
    exact h.inside (by rw [hb]; exact List.mem_cons_self)
  rw [Wraps, hnone, or_iff_left hsome]

end Cuts

theorem position_line {t : Text} (ht : t.length < UInt32.size) (o : UInt32) :
    (position (breaks t) o).line = ((t.take o.toNat).count newline + 1).toUInt32 := by
  obtain ⟨u, l, v, hcut, hholds⟩ := exists_holds t o.toNat
  rw [hcut.position_eq ht hholds, hcut.count_take hholds]

theorem Cut.line_eq_iff {t u l v : Text} (h : Cut t u l v) (ht : t.length < UInt32.size) {start : UInt32}
    (hstart : Holds u l v start.toNat) (stop : UInt32) :
    (position (breaks t) stop).line = (position (breaks t) start).line ↔ Holds u l v stop.toNat := by
  have hword : UInt32.size = 4294967296 := rfl
  have hcount : ∀ off, (t.take off).count newline ≤ t.length := fun off =>
    List.count_le_length.trans (List.length_take_le' ..)
  have hstop := hcount stop.toNat
  have hstart' := hcount start.toNat
  rw [h.holds_iff_count, position_line ht, position_line ht, h.count_take hstart, ← UInt32.toNat_inj,
    Nat.toUInt32_eq, Nat.toUInt32_eq, UInt32.toNat_ofNat', UInt32.toNat_ofNat']
  rw [h.count_take hstart] at hstart'
  omega

end Lines

namespace Pretty

open Lines Text

instance (t : Text) (off : UInt32) : Decidable (Wraps t off) :=
  inferInstanceAs (Decidable (_ ∧ (_ ∨ _)))

/-! ## Indices in a line -/

theorem columnIndex_word {k : Nat} (hk : k < UInt32.size) (l : Text) :
    columnIndex (k + 1).toUInt32 l = if k + 1 = UInt32.size then 0 else min k l.length := by
  have hword : UInt32.size = 4294967296 := rfl
  rw [columnIndex, Nat.toUInt32_eq, UInt32.toNat_ofNat']
  split <;> omega

section Indices

variable {t u l v : Text} (h : Cut t u l v) (ht : t.length < UInt32.size)
include h ht

theorem columnIndex_position {o : UInt32} (ho : Holds u l v o.toNat) :
    columnIndex (position (breaks t) o).col l = if Wraps t o then 0 else min (o.toNat - u.length) l.length := by
  by_cases hl : l = []
  · simp [hl, columnIndex]
  have hlength := h.length_eq
  have hword : o.toNat < UInt32.size := o.toNat_lt
  rw [h.position_eq ht ho, columnIndex_word (by omega)]
  congr 1
  rw [h.wraps_iff hl, eq_iff_iff]
  constructor
  · intro hlast
    have hu : u = [] := List.eq_nil_of_length_eq_zero (by omega)
    have hv : v = [] := by
      rcases ho.le_stop with hle | hv
      · exact List.eq_nil_of_length_eq_zero (by omega)
      · exact hv
    exact ⟨by omega, hu, hv⟩
  · rintro ⟨hlast, rfl, -⟩
    exact hlast

/-- Where the marker stops in a line: a span that ends on another line, an earlier one as well, goes to its end. -/
theorem stopIndex_eq {start : UInt32} (hstart : Holds u l v start.toNat) (stop : UInt32) :
    (if (position (breaks t) stop).line = (position (breaks t) start).line
      then columnIndex (position (breaks t) stop).col l else l.length) =
      if stop.toNat < u.length then l.length
      else if Wraps t stop then 0 else min (stop.toNat - u.length) l.length := by
  have hline := h.line_eq_iff ht hstart stop
  by_cases hstop : Holds u l v stop.toNat
  · rw [if_pos (hline.mpr hstop), if_neg (Nat.not_lt.mpr hstop.start_le), columnIndex_position h ht hstop]
  rw [if_neg (mt hline.mp hstop)]
  by_cases hearlier : stop.toNat < u.length
  · rw [if_pos hearlier]
  have hlater : ¬ (stop.toNat ≤ u.length + l.length ∨ v = []) := fun hle => hstop ⟨by omega, hle⟩
  rw [not_or] at hlater
  rw [if_neg hearlier]
  split
  · next hwraps =>
    by_contra hl
    have hl : l ≠ [] := by
      rintro rfl
      exact hl rfl
    exact hlater.2 ((h.wraps_iff hl).mp hwraps).2.2
  · omega

/-- The largest offset of a text of one line is not before the end of it. -/
theorem take_of_wraps (hl : l ≠ []) {o : UInt32} (hwraps : Wraps t o) : l.take (o.toNat - u.length) = l := by
  obtain ⟨hmax, rfl, -⟩ := (h.wraps_iff hl).mp hwraps
  have hlength := h.length_eq
  rw [List.length_nil] at hlength ⊢
  exact List.take_of_length_le (by omega)

theorem pad_fits_iff {start : UInt32} {first : Nat}
    (hfirst : first = if Wraps t start then 0 else min (start.toNat - u.length) l.length) :
    columns (l.take first) = columns (l.take (start.toNat - u.length)) ↔ (Wraps t start → l = []) := by
  by_cases hl : l = []
  · simp [hl]
  by_cases hwraps : Wraps t start
  · have hpos : l.length ≠ 0 := fun hzero => hl (List.eq_nil_of_length_eq_zero hzero)
    rw [if_pos hwraps] at hfirst
    rw [hfirst, take_of_wraps h ht hl hwraps, List.take_zero]
    refine iff_of_false (fun heq => ?_) fun himp => hl (himp hwraps)
    simp only [columns, List.length_nil, List.count_nil] at heq
    omega
  · rw [if_neg hwraps] at hfirst
    refine iff_of_true (congrArg columns ?_) fun hwraps' => absurd hwraps' hwraps
    rw [hfirst, List.take_eq_take_iff]
    omega

/-- The marker from an index on is as wide as the bytes of the span from there on. -/
theorem width_fits_iff (k : Nat) {stop : UInt32} {last : Nat}
    (hlast : last = if stop.toNat < u.length then l.length
      else if Wraps t stop then 0 else min (stop.toNat - u.length) l.length) :
    max (columns ((l.take last).drop k)) 1 = max 1 (columns ((l.take (stop.toNat - u.length)).drop k)) ↔
      columns (l.drop k) ≤ 1 ∨ u.length ≤ stop.toNat ∧ ¬ Wraps t stop := by
  have hzero : columns [] = 0 := rfl
  by_cases hl : l = []
  · simp [hl, hzero]
  by_cases hearlier : stop.toNat < u.length
  · -- The whole rest is marked, and none of it belongs to the span.
    have hnot : ¬ (u.length ≤ stop.toNat ∧ ¬ Wraps t stop) := fun hle => Nat.not_lt.mpr hle.1 hearlier
    have hnone : stop.toNat - u.length = 0 := by omega
    rw [if_pos hearlier] at hlast
    rw [hlast, List.take_length, hnone, List.take_zero, List.drop_nil, hzero, or_iff_left hnot]
    omega
  rw [if_neg hearlier] at hlast
  by_cases hstop : Wraps t stop
  · -- Nothing of the rest is marked, and all of it belongs to the span.
    have hnot : ¬ (u.length ≤ stop.toNat ∧ ¬ Wraps t stop) := fun hle => hle.2 hstop
    rw [if_pos hstop] at hlast
    rw [hlast, take_of_wraps h ht hl hstop, List.take_zero, List.drop_nil, hzero, or_iff_left hnot]
    omega
  · have hsame : l.take last = l.take (stop.toNat - u.length) := by
      rw [if_neg hstop] at hlast
      rw [hlast, List.take_eq_take_iff]
      omega
    rw [hsame, Nat.max_comm]
    exact iff_of_true rfl (.inr ⟨Nat.not_lt.mp hearlier, hstop⟩)

/-- The marker between these indices is below the bytes of the span. -/
theorem marker_fits_iff {start stop : UInt32} {first last : Nat}
    (hfirst : first = if Wraps t start then 0 else min (start.toNat - u.length) l.length)
    (hlast : last = if stop.toNat < u.length then l.length
      else if Wraps t stop then 0 else min (stop.toNat - u.length) l.length) :
    (columns (l.take first) = columns (l.take (start.toNat - u.length)) ∧
      max (columns ((l.take last).drop first)) 1 =
        max 1 (columns ((l.take (stop.toNat - u.length)).drop (start.toNat - u.length)))) ↔
    (Wraps t start → l = []) ∧
      (columns (l.drop (start.toNat - u.length)) ≤ 1 ∨ u.length ≤ stop.toNat ∧ ¬ Wraps t stop) := by
  rw [pad_fits_iff h ht hfirst]
  refine and_congr_right fun hfits => ?_
  have hbehind : (l.take last).drop first = (l.take last).drop (start.toNat - u.length) := by
    by_cases hl : l = []
    · simp [hl]
    rw [if_neg fun hwraps => hl (hfits hwraps)] at hfirst
    rw [hfirst]
    rcases Nat.le_total (start.toNat - u.length) l.length with hle | hle
    · rw [Nat.min_eq_left hle]
    · rw [Nat.min_eq_right hle, List.drop_of_length_le, List.drop_of_length_le]
      · exact (List.length_take_le' ..).trans hle
      · exact List.length_take_le' ..
  rw [hbehind]
  exact width_fits_iff h ht _ hlast

end Indices

/-! ## Snippets -/

/-- A line with its number. -/
def numbered (color : Bool) (n : Nat) (l : Text) : Text :=
  Style.blue.apply color (Text.ofNat n ++ " |") ++ " " ++ expandTabs l ++ [newline]

/-- A marker of `width` columns behind `pad` columns, to stand below the line with number `n`. -/
def underline (color : Bool) (n pad width : Nat) : Text :=
  Style.blue.apply color (spaces (Text.ofNat n).length ++ " |") ++ " " ++ spaces pad ++
    Style.boldGreen.apply color (marker width) ++ [newline]

section Snippets

variable {fs : FileSet} {span : Span} {f : SourceFile} (hget : fs.get? span.file = some f)
include hget

/-- A line whose number is no word is not shown. -/
theorem snippet_eq_nil (hf : f.Indexed) {u l v : Text} (h : Cut f.content u l v)
    (hstart : Holds u l v span.start.toNat) (hcount : u.count newline + 1 = UInt32.size) (color : Bool)
    (context : Int) : snippet fs color context span = [] := by
  have hline : (f.position span.start).line = 0 := by
    rw [SourceFile.position, hf.breaks_eq, h.position_eq hf.length_lt hstart, hcount]
    rfl
  simp [snippet, FileSet.resolve?, hget, hline]

theorem snippet_eq (hf : f.Indexed) {u l v : Text} (h : Cut f.content u l v)
    (hstart : Holds u l v span.start.toNat) (hplain : ∀ b ∈ l, isPlain b = true)
    (hcount : u.count newline + 1 < UInt32.size) (color : Bool) (context : Int) {first last : Nat}
    (hfirst : columnIndex (f.position span.start).col l = first)
    (hlast : (if (f.position span.stop).line = (f.position span.start).line
      then columnIndex (f.position span.stop).col l else l.length) = last) :
    ∃ above, (0 ≤ context → numbered color (u.count newline + 1) l <:+ above) ∧
      snippet fs color context span = above ++ underline color (u.count newline + 1) (columns (l.take first))
        (max (columns ((l.take last).drop first)) 1) := by
  have hposition : (f.position span.start).line = (u.count newline + 1).toUInt32 := by
    rw [SourceFile.position, hf.breaks_eq, h.position_eq hf.length_lt hstart]
  have hnumber : (u.count newline + 1).toUInt32.toNat = u.count newline + 1 := UInt32.toNat_ofNat_of_lt' hcount
  have hline : (f.position span.start).line ≠ 0 := by
    rw [hposition, Ne, ← UInt32.toNat_inj, hnumber]
    exact Nat.succ_ne_zero _
  have htext : f.line (u.count newline + 1).toUInt32 = l := by
    rw [SourceFile.line, hf.breaks_eq, h.line_eq hf.length_lt hnumber]
  have hresolve : fs.resolve? span = some (f.position span.start, f.position span.stop) := by
    simp [FileSet.resolve?, hget]
  have hcovered : (l.drop first).take (max last first - first) = (l.take last).drop first := by
    rw [List.drop_take]
    congr 1
    omega
  have hpad := width_expandTabs fun b hb => hplain b (List.mem_of_mem_take (i := first) hb)
  have hwidth := width_expandTabs fun b hb =>
    hplain b (List.mem_of_mem_take (i := last) (List.mem_of_mem_drop (i := first) hb))
  simp only [snippet, hget, hresolve, if_neg hline]
  simp only [hposition, hnumber, htext] at hlast ⊢
  rw [hfirst, hlast, hcovered, hpad, hwidth]
  generalize hn : u.count newline + 1 = n at *
  simp only [underline, List.append_assoc]
  refine ⟨_, fun hcontext => ?_, rfl⟩
  -- The last of the numbered lines is the one that the span starts on.
  obtain ⟨k, hk⟩ : ∃ k, n + 1 - (max ((n : Int) - context) 1).toNat = k + 1 := Nat.exists_eq_add_one.mpr (by omega)
  have hend : (max ((n : Int) - context) 1).toNat + k = n := by omega
  rw [hk, List.range_succ, List.flatMap_append, List.flatMap_singleton, hend, sourceLine, htext]
  have hgutter : padLeft (Text.ofNat n).length (Text.ofNat n) = Text.ofNat n := by simp [padLeft, spaces]
  rw [hgutter]
  exact List.suffix_append ..

end Snippets

/-- Whatever the spans of diagnostics are, rendering reads, cuts and repeats inside the bounds. On a line of plain
text the marker starts below the first byte of the span and covers its bytes on this line, at least one column,
exactly if the start does not wrap and, unless at most one column is left of the line there, the span neither ends on
an earlier line nor wraps at its end. A snippet is missing only if the number of its line is no word. -/
theorem rendered_within_bounds_and_marked_iff {fs : FileSet} (hfs : fs.Indexed) :
    (∀ o ds, Checked.pretty? fs o ds = some (render fs o ds)) ∧
    (∀ o ds scopes, Checked.listing? fs o ds scopes = some (Listing.toJson fs o ds scopes)) ∧
    (∀ withNotes ds, Checked.short? fs withNotes ds = some (Short.render fs withNotes ds)) ∧
    ∀ color context span f u l v, fs.get? span.file = some f → Cut f.content u l v →
      Holds u l v span.start.toNat → (∀ b ∈ l, isPlain b = true) →
      (u.count newline + 1 = UInt32.size ∧ snippet fs color context span = []) ∨
      ∃ above pad width,
        (0 ≤ context → numbered color (u.count newline + 1) l <:+ above) ∧ 1 ≤ width ∧
        snippet fs color context span = above ++ underline color (u.count newline + 1) pad width ∧
        ((pad = columns (l.take (span.start.toNat - u.length)) ∧
            width = max 1 (columns ((l.take (span.stop.toNat - u.length)).drop (span.start.toNat - u.length)))) ↔
          (Wraps f.content span.start → l = []) ∧
            (columns (l.drop (span.start.toNat - u.length)) ≤ 1 ∨
              u.length ≤ span.stop.toNat ∧ ¬ Wraps f.content span.stop)) := by
  refine ⟨Checked.pretty?_eq hfs, Checked.listing?_eq hfs, Checked.short?_eq hfs, ?_⟩
  intro color context span f u l v hget hcut hstart hplain
  have hf := hfs.file hget
  have hle : u.count newline ≤ f.content.length := by
    have hlength := hcut.length_eq
    exact List.count_le_length.trans (by omega)
  rcases Nat.lt_or_eq_of_le (Nat.succ_le_of_lt (hle.trans_lt hf.length_lt)) with hcount | hcount
  case inr => exact .inl ⟨hcount, snippet_eq_nil hget hf hcut hstart hcount color context⟩
  have hfirst := columnIndex_position hcut hf.length_lt hstart
  have hlast := stopIndex_eq hcut hf.length_lt hstart span.stop
  rw [← hf.breaks_eq] at hfirst hlast
  obtain ⟨above, habove, hsnippet⟩ := snippet_eq hget hf hcut hstart hplain hcount color context hfirst hlast
  exact .inr ⟨above, _, _, habove, Nat.le_max_right .., hsnippet, marker_fits_iff hcut hf.length_lt rfl rfl⟩

/-- A file of two lines. -/
def twoLines : FileSet := (({} : FileSet).addVirtual "a" "abc\ndef").1

/-- A span from the second line back into the first is rendered, but more than one column is marked. -/
theorem backward_span_marked :
    (∀ o ds, (Checked.pretty? twoLines o ds).isSome) ∧
    ∃ above pad width, snippet twoLines false 0 ⟨0, 4, 1⟩ = above ++ underline false 2 pad width ∧
      ¬ (pad = 0 ∧ width = 1) := by
  have hindexed : twoLines.Indexed := (FileSet.indexed_empty [] "/").add "a" (by decide) FileFlags.virtual
  obtain ⟨hpretty, -, -, hmarked⟩ := rendered_within_bounds_and_marked_iff hindexed
  have hcut : Cut "abc\ndef" "abc\n" "def" [] := ⟨by decide, .inr ⟨"abc", by decide⟩, by decide, .inl rfl⟩
  have hplain : ∀ b ∈ ("def" : Text), isPlain b = true := List.all_eq_true.mp (by decide)
  obtain ⟨above, pad, width, -, -, hsnippet, hiff⟩ :=
    (hmarked false 0 ⟨0, 4, 1⟩ _ _ _ _ rfl hcut ⟨by decide, .inr rfl⟩ hplain).resolve_left fun h =>
      absurd h.1 (by decide)
  refine ⟨fun o ds => by rw [hpretty]; rfl, above, pad, width, hsnippet, ?_⟩
  exact fun hfits => absurd (hiff.mp hfits) (by decide)

end Pretty

end DeclCheck
