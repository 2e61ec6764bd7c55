import DeclCheck.Manifest.Load
import DeclCheck.Proofs.Text.Pieces
import DeclCheck.Text.Utf8

/-!
# The characters of identifiers

An identifier is well-formed UTF-8: a character that may start it and characters that may go on with it. No
blank and no bracket is among them.
-/
namespace DeclCheck.Manifest

/-- The code points that an identifier may start with. -/
def startPoint (n : Nat) : Bool := n == 0x5F || Text.inRanges Text.letterRanges n

/-- The code points that may stand in an identifier. -/
def wordPoint (n : Nat) : Bool := startPoint n || Text.inRanges Text.digitRanges n

theorem wordPoint_of_startPoint {n : Nat} (h : startPoint n = true) : wordPoint n = true := by
  rw [wordPoint, h, Bool.true_or]

theorem eq_underscore (c : Char) : (c == '_') = (c.toNat == 0x5F) := by
  rw [Bool.eq_iff_iff, beq_iff_eq, beq_iff_eq, ← Char.toNat_inj]
  rfl

theorem startsIdentifier_char (c : Char) : startsIdentifier (.char c) = startPoint c.toNat := by
  rw [startsIdentifier, eq_underscore]
  rfl

theorem continuesIdentifier_char (c : Char) : continuesIdentifier (.char c) = wordPoint c.toNat := by
  rw [continuesIdentifier, eq_underscore]
  rfl

theorem all_continues_iff {xs : List Text.Piece} : xs.all continuesIdentifier = true ↔
    ∃ cs : List Char, xs = cs.map .char ∧ ∀ c ∈ cs, wordPoint c.toNat = true := by
  induction xs with
  | nil => exact iff_of_true rfl ⟨[], rfl, by simp⟩
  | cons x xs ih =>
    rw [List.all_cons, Bool.and_eq_true, ih]
    constructor
    · rintro ⟨hx, cs, rfl, hcs⟩
      cases x with
      | stray b => cases hx
      | char c =>
        rw [continuesIdentifier_char] at hx
        exact ⟨c :: cs, rfl, List.forall_mem_cons.mpr ⟨hx, hcs⟩⟩
    · rintro ⟨cs, hxs, hcs⟩
      cases cs with
      | nil => cases hxs
      | cons c cs =>
        obtain ⟨rfl, rfl⟩ := List.cons.inj hxs
        rw [List.forall_mem_cons] at hcs
        rw [continuesIdentifier_char]
        exact ⟨hcs.1, cs, rfl, hcs.2⟩

theorem isIdentifier_iff {t : Text} : isIdentifier t = true ↔ ∃ (c : Char) (cs : List Char),
    t = Text.ofChars (c :: cs) ∧ startPoint c.toNat = true ∧ ∀ d ∈ cs, wordPoint d.toNat = true := by
  have hbytes := Text.flatMap_bytes_pieces t
  unfold isIdentifier
  constructor
  · intro h
    split at h
    · cases h
    · next x xs hpieces =>
      rw [Bool.and_eq_true, all_continues_iff] at h
      obtain ⟨hx, cs, rfl, hcs⟩ := h
      cases x with
      | stray b => cases hx
      | char c =>
        rw [startsIdentifier_char] at hx
        refine ⟨c, cs, ?_, hx, hcs⟩
        rw [← hbytes, hpieces, ← List.map_cons, ← Text.pieces_ofChars, Text.flatMap_bytes_pieces]
  · rintro ⟨c, cs, rfl, hc, hcs⟩
    rw [Text.pieces_ofChars, List.map_cons]
    dsimp only
    rw [startsIdentifier_char, hc, Bool.true_and, all_continues_iff]
    exact ⟨cs, rfl, hcs⟩

/-- The code points of blanks. -/
def blankPoints : List Nat :=
  List.range' 9 5 ++ [0x20, 0x85, 0xA0, 0x1680] ++ List.range' 0x2000 11 ++
    [0x2028, 0x2029, 0x202F, 0x205F, 0x3000]

theorem isBlank_iff {c : Char} : Text.isBlank c = true ↔ c.toNat ∈ blankPoints := by
  simp only [Text.isBlank, blankPoints, Bool.or_eq_true, Bool.and_eq_true, decide_eq_true_eq, beq_iff_eq,
    List.mem_append, List.mem_range'_1, List.mem_cons, List.not_mem_nil, or_false]
  omega

theorem wordPoint_blankPoints : ∀ n ∈ blankPoints, wordPoint n = false := by decide +kernel

theorem not_isBlank_of_wordPoint {c : Char} (h : wordPoint c.toNat = true) : Text.isBlank c = false := by
  rw [Bool.eq_false_iff]
  intro hblank
  rw [wordPoint_blankPoints _ (isBlank_iff.mp hblank)] at h
  cases h

end DeclCheck.Manifest
