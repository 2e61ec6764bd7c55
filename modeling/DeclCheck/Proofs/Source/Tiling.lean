import DeclCheck.Proofs.Source.Access

/-!
# The lines of a file

The lines of a file are the pieces of its content between the line feeds, so that joining them gives the content
back. The line of an offset is the one that its position names, also where the number of the line or the column is
no word and starts over.
-/
namespace DeclCheck

open Text

namespace Lines

@[simp] theorem line_zero (t : Text) (bs : List UInt32) : line t bs 0 = [] := rfl

/-- The number of a line is taken for a word. The one line whose number is none is the last of the longest text, and
is as empty as the line zero that is read in its place. -/
theorem Cut.line_toUInt32 {t u l v : Text} (h : Cut t u l v) (ht : t.length < UInt32.size) :
    line t (breaks t) (u.count newline + 1).toUInt32 = l := by
  by_cases hword : u.count newline + 1 < UInt32.size
  · exact h.line_eq ht (UInt32.toNat_ofNat_of_lt' hword)
  · have hlength := h.length_eq
    have hcount := List.count_le_length (l := u) (a := newline)
    have hlast : u.count newline + 1 = UInt32.size := by omega
    have hempty : l = [] := List.eq_nil_of_length_eq_zero (by omega)
    rw [hlast, hempty]
    exact line_zero t (breaks t)

theorem lines_eq_splitOn {t : Text} (ht : t.length < UInt32.size) :
    (List.range (t.count newline + 1)).map (fun k => line t (breaks t) (k + 1).toUInt32) = splitOn newline t := by
  apply List.ext_getElem
  · rw [List.length_map, List.length_range, length_splitOn]
  · intro k hk hsplit
    obtain ⟨u, v, hcut, rfl⟩ := splitOn_getElem? (List.getElem?_eq_getElem hsplit)
    rw [List.getElem_map, List.getElem_range, hcut.line_toUInt32 ht]

theorem newline_not_mem_line {t : Text} (ht : t.length < UInt32.size) (n : UInt32) :
    newline ∉ line t (breaks t) n := by
  by_cases hzero : n = 0
  · rw [hzero, line_zero]
    exact List.not_mem_nil
  by_cases hmore : t.count newline + 1 < n.toNat
  · rw [line_of_no_line hmore]
    exact List.not_mem_nil
  · have hpos : n.toNat ≠ 0 := fun h => hzero (UInt32.toNat_inj.mp h)
    obtain ⟨u, l, v, hcut, hcount⟩ := exists_cut (t := t) (k := n.toNat - 1) (by omega)
    rw [hcut.line_eq ht (by omega)]
    exact hcut.inside

/-- A position and a line locate an offset: the line has the number of the position, and the offset is so many bytes
behind its start as the column says, at a byte of the line or at its end. -/
def Locates (t : Text) (pos : LineCol) (l : Text) (off : UInt32) : Prop :=
  ∃ u v, Cut t u l v ∧ pos.line = (u.count newline + 1).toUInt32 ∧ off.toNat = u.length + (pos.col - 1).toNat ∧
    ((∃ b, t[off.toNat]? = some b ∧ l[(pos.col - 1).toNat]? = some b) ∨ off.toNat = u.length + l.length)

theorem locates_position {t : Text} (ht : t.length < UInt32.size) {off : UInt32} (hoff : off.toNat ≤ t.length) :
    Locates t (position (breaks t) off) (line t (breaks t) (position (breaks t) off).line) off := by
  obtain ⟨u, w, h⟩ := exists_stands hoff
  obtain ⟨v', v, hcut⟩ := h.exists_cut
  have hlength := h.length
  have hle := h.le_length
  -- The column may be no word, but one less than it is.
  have hcol : ((w.length + 1).toUInt32 - 1).toNat = w.length := by
    have hpred : (w.length + 1).toUInt32 - 1 = w.length.toUInt32 := by simp
    rw [hpred]
    exact UInt32.toNat_ofNat_of_lt' (by omega)
  rw [h.position_eq ht rfl]
  dsimp only
  rw [hcut.line_toUInt32 ht]
  refine ⟨u, v, hcut, rfl, by rw [hcol, hlength], ?_⟩
  rw [hcol]
  cases v' with
  | nil =>
    right
    rw [List.append_nil, hlength]
  | cons b rest =>
    refine .inl ⟨b, ?_, by simp⟩
    rw [hlength, hcut.eq]
    simp

end Lines

/-- The lines of a file tile its content, and the line that the position of an offset names is the one that the offset
is on. Lines and positions are found by reading inside the bounds. -/
structure SourceFile.Tiled (f : SourceFile) : Prop where
  line?_eq : ∀ n, Checked.line? f n = some (f.line n)
  position?_eq : ∀ off, Checked.position? f.breaks off = some (f.position off)
  join_lines : join [newline] ((List.range (f.content.count newline + 1)).map fun k => f.line (k + 1).toUInt32) =
    f.content
  newline_not_mem : ∀ n, newline ∉ f.line n
  line_zero : f.line 0 = []
  line_behind : ∀ n : UInt32, f.content.count newline + 1 < n.toNat → f.line n = []
  located : ∀ off : UInt32, off.toNat ≤ f.content.length →
    Lines.Locates f.content (f.position off) (f.line (f.position off).line) off

theorem SourceFile.Indexed.tiled {f : SourceFile} (hf : f.Indexed) : f.Tiled := by
  have ht := hf.length_lt
  have hline : ∀ n, f.line n = Lines.line f.content (Lines.breaks f.content) n := by
    intro n
    rw [SourceFile.line, hf.breaks_eq]
  have hposition : ∀ off, f.position off = Lines.position (Lines.breaks f.content) off := by
    intro off
    rw [SourceFile.position, hf.breaks_eq]
  refine ⟨Checked.line?_eq hf, Checked.filePosition?_eq hf, ?_, fun n => ?_, Lines.line_zero _ _, fun n hn => ?_,
    fun off hoff => ?_⟩
  · simp only [hline, Lines.lines_eq_splitOn ht]
    exact join_splitOn newline f.content
  · rw [hline]
    exact Lines.newline_not_mem_line ht n
  · rw [hline, Lines.line_of_no_line hn]
  · rw [hline, hposition]
    exact Lines.locates_position ht hoff

/-- Whatever is added to a file set, its lines tile it. -/
theorem FileSet.added_lines_tile (fs : FileSet) (path t : Text) (flags : FileFlags) (ht : t.length < UInt32.size) :
    ∃ f, (fs.add path t flags).1.get? (fs.add path t flags).2 = some f ∧ f.content = t ∧ f.Tiled := by
  refine ⟨_, Array.getElem?_push_size, rfl, ?_⟩
  exact SourceFile.Indexed.tiled ⟨rfl, ht⟩

theorem FileSet.emptyLine_located :
    let t : Text := [97, 98, newline, newline, 99]
    t.length < UInt32.size ∧ ∃ f, (FileSet.add {} [97] t FileFlags.virtual).1.get? 0 = some f ∧
      join [newline] [f.line 1, f.line 2, f.line 3] = t ∧ f.line 4 = [] ∧
      Lines.Locates t ⟨2, 1⟩ [] 3 ∧ Lines.Locates t ⟨3, 1⟩ [99] 4 ∧ Lines.Locates t ⟨3, 2⟩ [99] 5 := by
  intro t
  obtain ⟨f, hget, hcontent, htiled⟩ := FileSet.added_lines_tile {} [97] t FileFlags.virtual (by decide)
  have hbreaks : f.breaks = [2, 3] := congrArg SourceFile.breaks (Option.some.inj hget).symm
  have hlocated : ∀ off : UInt32, off.toNat ≤ 5 →
      Lines.Locates t (Lines.position [2, 3] off) (Lines.line t [2, 3] (Lines.position [2, 3] off).line) off := by
    intro off hoff
    have h := htiled.located off (by rw [hcontent]; exact hoff)
    rwa [SourceFile.line, SourceFile.position, hbreaks, hcontent] at h
  have hjoin := htiled.join_lines
  rw [hcontent] at hjoin
  exact ⟨by decide, f, hget, hjoin, htiled.line_behind 4 (by rw [hcontent]; decide), hlocated 3 (by decide),
    hlocated 4 (by decide), hlocated 5 (by decide)⟩

end DeclCheck
