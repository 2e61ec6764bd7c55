import DeclCheck.Proofs.Source.Lines
import DeclCheck.Source.FileSet

/-!
# Reading inside the bounds

Reading a list at an index or between two indices, and repeating an element, are checked here: outside the bounds
there is no answer. The positions of offsets and the lines of a file, read in this way, always have one, and it is
the one that the total functions give.
-/
namespace DeclCheck

/-- The offsets of the line feeds are those of the content, and they are words. -/
structure SourceFile.Indexed (f : SourceFile) : Prop where
  breaks_eq : f.breaks = Lines.breaks f.content
  length_lt : f.content.length < UInt32.size

/-- All files are indexed. -/
def FileSet.Indexed (fs : FileSet) : Prop := ∀ f ∈ fs.files, f.Indexed

theorem FileSet.indexed_empty (base cwd : Text) : FileSet.Indexed { base, cwd } := by
  intro f hf
  simp at hf

theorem FileSet.Indexed.add {fs : FileSet} (h : fs.Indexed) (path : Text) {content : Text}
    (hlength : content.length < UInt32.size) (flags : FileFlags) : (fs.add path content flags).1.Indexed := by
  intro f hf
  rcases Array.mem_push.mp hf with hold | rfl
  · exact h f hold
  · exact ⟨rfl, hlength⟩

theorem FileSet.Indexed.file {fs : FileSet} (h : fs.Indexed) {id : FileId} {f : SourceFile}
    (hf : fs.get? id = some f) : f.Indexed :=
  h f (Array.mem_of_getElem? hf)

namespace Checked

variable {α : Type}

/-- The element at an index of the list. -/
def at? (xs : List α) (i : Int) : Option α := if 0 ≤ i then xs[i.toNat]? else none

/-- The elements from an index of the list to another that is not before it. -/
def slice? (xs : List α) (i j : Int) : Option (List α) :=
  if 0 ≤ i ∧ i ≤ j ∧ j ≤ xs.length then some ((xs.take j.toNat).drop i.toNat) else none

/-- So many times the same element, if the number is not negative. -/
def copies? (n : Int) (a : α) : Option (List α) := if 0 ≤ n then some (List.replicate n.toNat a) else none

@[simp] theorem at?_natCast (xs : List α) (i : Nat) : at? xs i = xs[i]? := by
  simp [at?]

@[simp] theorem copies?_natCast (n : Nat) (a : α) : copies? n a = some (List.replicate n a) := by
  simp [copies?]

theorem slice?_natCast {xs : List α} {i j : Nat} (hij : i ≤ j) (hj : j ≤ xs.length) :
    slice? xs i j = some ((xs.drop i).take (j - i)) := by
  rw [slice?, if_pos ⟨by omega, by omega, by omega⟩, Int.toNat_natCast, Int.toNat_natCast, List.drop_take]

/-! ## Positions -/

/-- How many line feeds are before an offset: it lies between `lo` and `hi`, and half of the rest is looked at in
each step. -/
def search? (bs : List UInt32) (off : UInt32) (lo hi : Nat) : Option Nat :=
  if lo < hi then do
    let b ← at? bs ((lo + hi) / 2 : Nat)
    if b < off then search? bs off ((lo + hi) / 2 + 1) hi else search? bs off lo ((lo + hi) / 2)
  else some lo
termination_by hi - lo

/-- The position of an offset. -/
def position? (bs : List UInt32) (off : UInt32) : Option LineCol := do
  let n ← search? bs off 0 bs.length
  let lineStart ← if 0 < n then (at? bs (n - 1)).map (· + 1) else some 0
  return { line := (n + 1).toUInt32, col := off - lineStart + 1 }

theorem before_eq (off : UInt32) (seen bs : List UInt32) :
    Lines.before off seen bs = (bs.takeWhile (· < off)).reverse ++ seen := by
  induction bs generalizing seen with
  | nil => rfl
  | cons b bs ih =>
    rw [Lines.before, List.takeWhile_cons]
    by_cases hb : b < off
    · simp [hb, ih]
    · simp [hb]

/-- In an increasing list the elements below an offset are those in front. -/
theorem lt_iff_index_lt {bs : List UInt32} (hbs : bs.Pairwise (· < ·)) {off b : UInt32} {i : Nat}
    (hi : bs[i]? = some b) : b < off ↔ i < (bs.takeWhile (· < off)).length := by
  induction bs generalizing i with
  | nil => simp at hi
  | cons c bs ih =>
    obtain ⟨hc, hbs⟩ := List.pairwise_cons.mp hbs
    rw [List.takeWhile_cons]
    by_cases hoff : c < off
    · cases i with
      | zero =>
        cases hi
        simp [hoff]
      | succ i => simpa [hoff] using ih hbs hi
    · have hge : ¬ b < off := by
        cases i with
        | zero =>
          cases hi
          exact hoff
        | succ i =>
          have hlt : c < b := hc b (List.mem_of_getElem? hi)
          exact fun hb => hoff (UInt32.lt_trans hlt hb)
      simp [hoff, hge]

theorem search?_eq {bs : List UInt32} (hbs : bs.Pairwise (· < ·)) (off : UInt32) {lo hi : Nat}
    (hlo : lo ≤ (bs.takeWhile (· < off)).length) (hhi : (bs.takeWhile (· < off)).length ≤ hi)
    (hlength : hi ≤ bs.length) : search? bs off lo hi = some (bs.takeWhile (· < off)).length := by
  fun_induction search? bs off lo hi with
  | case1 lo hi hlt ihright ihleft =>
    have hmid : (lo + hi) / 2 < bs.length := by omega
    have hget := List.getElem?_eq_getElem hmid
    have hbelow : bs[(lo + hi) / 2] < off ↔ _ := lt_iff_index_lt hbs hget
    simp only [at?_natCast, hget, Option.bind_eq_bind, Option.bind_some]
    split
    · next hb => exact ihright (hbelow.mp hb) hhi hlength
    · next hb => exact ihleft hlo (Nat.not_lt.mp (mt hbelow.mpr hb)) (by omega)
  | case2 lo hi hlt => rw [show lo = (bs.takeWhile (· < off)).length by omega]

theorem position?_eq {bs : List UInt32} (hbs : bs.Pairwise (· < ·)) (off : UInt32) :
    position? bs off = some (Lines.position bs off) := by
  have hfront := List.takeWhile_prefix (· < off) (l := bs)
  rw [position?, search?_eq hbs off (Nat.zero_le _) hfront.length_le (Nat.le_refl _), Lines.position, before_eq,
    List.append_nil]
  generalize bs.takeWhile (· < off) = front at hfront
  cases front using List.reverseRecOn with
  | nil => rfl
  | append_singleton front b =>
    obtain ⟨rest, rfl⟩ := hfront
    simp

theorem breaksFrom_increasing {n : Nat} {t : Text} (h : n + t.length < UInt32.size) :
    (Lines.breaksFrom n t).Pairwise (· < ·) := by
  induction t generalizing n with
  | nil => exact .nil
  | cons b t ih =>
    rw [List.length_cons] at h
    have hrest := ih (n := n + 1) (by omega)
    unfold Lines.breaksFrom
    split
    · refine List.pairwise_cons.mpr ⟨fun c hc => ?_, hrest⟩
      have hbound := Lines.mem_breaksFrom_bounds (by omega) hc
      rw [UInt32.lt_iff_toNat_lt, Nat.toUInt32_eq, UInt32.toNat_ofNat_of_lt' (by omega)]
      omega
    · exact hrest

/-! ## Lines -/

/-- Where a line of a file ends. -/
def lineStop? (f : SourceFile) (n : UInt32) : Option UInt32 :=
  if (n.toNat : Int) - 1 < f.breaks.length then at? f.breaks (n - 1).toNat else some f.size

/-- A line of a file from its start on. -/
def lineFrom? (f : SourceFile) (n start : UInt32) : Option Text := do
  let stop ← lineStop? f n
  if stop < start then some [] else slice? f.content start.toNat stop.toNat

/-- A line of a file. -/
def line? (f : SourceFile) (n : UInt32) : Option Text :=
  if n = 0 then some []
  else if n = 1 then lineFrom? f n 0
  else if (f.breaks.length : Int) ≤ n.toNat - 2 then some []
  else do
    let b ← at? f.breaks (n.toNat - 2)
    lineFrom? f n (b + 1)

theorem lineStop?_eq {f : SourceFile} {n : UInt32} (hn : n ≠ 0) :
    lineStop? f n = some (Lines.stop f.breaks f.size n) := by
  have hpos : n.toNat ≠ 0 := fun hzero => hn (UInt32.toNat_inj.mp hzero)
  have hpred : (n - 1).toNat = n.toNat - 1 := by
    rw [UInt32.toNat_sub_of_le]
    · rfl
    · rw [UInt32.le_iff_toNat_le]
      exact Nat.one_le_iff_ne_zero.mpr hpos
  rw [lineStop?, Lines.stop, at?_natCast, hpred]
  split
  · next hlt => rw [List.getElem?_eq_getElem (by omega), Option.getD_some]
  · next hge => rw [List.getElem?_eq_none (by omega), Option.getD_none]

section Files

variable {f : SourceFile} (hf : f.Indexed)
include hf

theorem filePosition?_eq (off : UInt32) : position? f.breaks off = some (f.position off) := by
  have hbreaks : f.breaks.Pairwise (· < ·) := by
    rw [hf.breaks_eq]
    exact breaksFrom_increasing (by simpa using hf.length_lt)
  exact position?_eq hbreaks off

theorem stop_le_length (n : UInt32) : (Lines.stop f.breaks f.size n).toNat ≤ f.content.length := by
  rw [Lines.stop]
  cases hb : f.breaks[n.toNat - 1]? with
  | none => exact (UInt32.toNat_ofNat_of_lt' hf.length_lt).le
  | some b =>
    have hmem := List.mem_of_getElem? hb
    rw [hf.breaks_eq] at hmem
    have hbound := Lines.mem_breaksFrom_bounds (by simpa using hf.length_lt) hmem
    rw [Option.getD_some]
    omega

theorem lineFrom?_eq {n : UInt32} (hn : n ≠ 0) (start : UInt32) :
    lineFrom? f n start = some (if Lines.stop f.breaks f.size n < start then []
      else (f.content.drop start.toNat).take ((Lines.stop f.breaks f.size n).toNat - start.toNat)) := by
  rw [lineFrom?, lineStop?_eq hn, Option.bind_eq_bind, Option.bind_some]
  split
  · rfl
  · next hle =>
    rw [UInt32.lt_iff_toNat_lt] at hle
    rw [slice?_natCast (by omega) (stop_le_length hf n)]

theorem line?_eq (n : UInt32) : line? f n = some (f.line n) := by
  have hsize : f.content.length.toUInt32 = f.size := rfl
  by_cases hzero : n = 0
  · simp [line?, SourceFile.line, Lines.line, Lines.start?, hzero]
  rw [line?, if_neg hzero, SourceFile.line, Lines.line, Lines.start?, if_neg hzero, hsize]
  by_cases hone : n = 1
  · rw [if_pos hone, if_pos hone, lineFrom?_eq hf hzero]
  rw [if_neg hone, if_neg hone]
  have hpos : n.toNat ≠ 0 := fun h => hzero (UInt32.toNat_inj.mp h)
  have hmore : n.toNat ≠ 1 := fun h => hone (UInt32.toNat_inj.mp h)
  have hindex : (n.toNat : Int) - 2 = (n.toNat - 2 : Nat) := by omega
  rw [hindex, at?_natCast]
  split
  · next hle => rw [List.getElem?_eq_none (by omega), Option.map_none]
  · next hlt =>
    rw [List.getElem?_eq_getElem (by omega), Option.map_some, Option.bind_eq_bind, Option.bind_some,
      lineFrom?_eq hf hzero]

end Files

end Checked

end DeclCheck
