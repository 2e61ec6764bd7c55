import DeclCheck.Text

/-!
# Characters of a text

Reading a text as UTF-8 splits it into characters and stray bytes: bytes that start no
well-formed sequence. Nothing is lost, so the pieces of a text written one after the other are
the text again.
-/
namespace DeclCheck.Text

/-- A character of a text, or a byte that belongs to none. -/
inductive Piece where
  | char (c : Char)
  | stray (b : UInt8)
  deriving DecidableEq, Repr

/-- The code point shown for a stray byte. -/
def replacement : Char := '�'

/-- The character of a piece; a stray byte reads as the replacement character. -/
def Piece.toChar : Piece → Char
  | .char c => c
  | .stray _ => replacement

def Piece.bytes : Piece → Text
  | .char c => String.utf8EncodeChar c
  | .stray b => [b]

def within (lo hi b : UInt8) : Bool := lo ≤ b && b ≤ hi

/-- The least and the greatest second byte of a three-byte sequence that starts with `a`. -/
def secondOfThree (a : UInt8) : UInt8 × UInt8 :=
  if a = 0xE0 then (0xA0, 0xBF) else if a = 0xED then (0x80, 0x9F) else (0x80, 0xBF)

/-- The least and the greatest second byte of a four-byte sequence that starts with `a`. -/
def secondOfFour (a : UInt8) : UInt8 × UInt8 :=
  if a = 0xF0 then (0x90, 0xBF) else if a = 0xF4 then (0x80, 0x8F) else (0x80, 0xBF)

def tailBits (b : UInt8) : Nat := b.toNat % 64

/-- The character at the front of a text with the number of its bytes, if the text starts with a
well-formed sequence. -/
def leadingChar? : Text → Option (Char × Nat)
  | [] => none
  | a :: rest =>
    if a < 0x80 then some (Char.ofNat a.toNat, 1)
    else if within 0xC2 0xDF a then
      match rest with
      | b :: _ =>
        if within 0x80 0xBF b then some (Char.ofNat (a.toNat % 32 * 64 + tailBits b), 2) else none
      | [] => none
    else if within 0xE0 0xEF a then
      match rest with
      | b :: c :: _ =>
        let (lo, hi) := secondOfThree a
        if within lo hi b && within 0x80 0xBF c then
          some (Char.ofNat ((a.toNat % 16 * 64 + tailBits b) * 64 + tailBits c), 3)
        else none
      | _ => none
    else if within 0xF0 0xF4 a then
      match rest with
      | b :: c :: d :: _ =>
        let (lo, hi) := secondOfFour a
        if within lo hi b && within 0x80 0xBF c && within 0x80 0xBF d then
          some (Char.ofNat
            (((a.toNat % 8 * 64 + tailBits b) * 64 + tailBits c) * 64 + tailBits d), 4)
        else none
      | _ => none
    else none

/-- The number of bytes of the piece at the front of a text. A stray byte counts one, and so does
the end of the text. -/
def leadingSize (t : Text) : Nat :=
  match leadingChar? t with
  | some (_, n) => n
  | none => 1

/-- Reads pieces from a text, where the first `skip` bytes are the rest of a piece already read. -/
def piecesFrom : Nat → Text → List Piece
  | _, [] => []
  | skip + 1, _ :: t => piecesFrom skip t
  | 0, b :: t =>
    match leadingChar? (b :: t) with
    | some (c, n) => .char c :: piecesFrom (n - 1) t
    | none => .stray b :: piecesFrom 0 t

def pieces (t : Text) : List Piece := piecesFrom 0 t

/-- The characters of a text, with the replacement character for each stray byte. -/
def chars (t : Text) : List Char := (pieces t).map Piece.toChar

def isUtf8 (t : Text) : Bool :=
  (pieces t).all fun
    | .char _ => true
    | .stray _ => false

/-- The text as a string, with the replacement character for each stray byte. -/
def toStringLossy (t : Text) : String := String.ofList (chars t)

/-! ## Blanks

The blanks are the code points of the White_Space property. A stray byte is no blank. -/

def isBlank (c : Char) : Bool :=
  let n := c.toNat
  (9 ≤ n && n ≤ 13) || n == 0x20 || n == 0x85 || n == 0xA0 || n == 0x1680 ||
    (0x2000 ≤ n && n ≤ 0x200A) || n == 0x2028 || n == 0x2029 || n == 0x202F || n == 0x205F ||
    n == 0x3000

def Piece.isBlank : Piece → Bool
  | .char c => Text.isBlank c
  | .stray _ => false

def trim (t : Text) : Text :=
  (((pieces t).dropWhile Piece.isBlank).reverse.dropWhile Piece.isBlank).reverse.flatMap
    Piece.bytes

/-! ## Letter case of keywords

Keywords are ASCII, so only the characters whose lower case or whose fold is an ASCII letter can
tell one keyword from another. Beside the ASCII capitals these are the dotted capital I and the
kelvin sign for the lower case, and the kelvin sign and the long s for the fold. All other
characters are left alone, and no text that holds one is a keyword. -/

/-- The lower case of a character as far as it can reach an ASCII letter. -/
def lowerChar (c : Char) : Char :=
  if c.toNat = 0x130 then 'i' else if c.toNat = 0x212A then 'k' else c.toLower

/-- The fold of a character as far as it can reach an ASCII letter. -/
def foldChar (c : Char) : Char :=
  if c.toNat = 0x17F then 's' else if c.toNat = 0x212A then 'k' else c.toLower

def lowerKeyword (t : Text) : Text :=
  (pieces t).flatMap fun
    | .char c => ofChars [lowerChar c]
    | .stray b => [b]

/-- Does the text spell the keyword when letter case is ignored? -/
def matchesKeyword (t keyword : Text) : Bool :=
  ((pieces t).flatMap fun
    | .char c => ofChars [foldChar c]
    | .stray b => [b]) == keyword

end DeclCheck.Text
