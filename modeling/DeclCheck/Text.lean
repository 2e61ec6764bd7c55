/-!
# Texts

A text is a finite sequence of bytes. It is UTF-8 wherever its source was, but nothing here asks
for that: offsets, lengths and comparisons count bytes, and a byte that belongs to no character
is kept as it is.
-/
namespace DeclCheck

/-- A text is the list of its bytes. -/
abbrev Text := List UInt8

namespace Text

def ofChars (cs : List Char) : Text := cs.flatMap String.utf8EncodeChar

def ofString (s : String) : Text := ofChars s.toList

instance : Coe String Text := ⟨ofString⟩

def ofNat (n : Nat) : Text := (Nat.toDigits 10 n).flatMap String.utf8EncodeChar

/-- The decimal digits of an integer, after a minus sign if it is negative. -/
def ofInt : Int → Text
  | .ofNat n => ofNat n
  | .negSucc n => "-" ++ ofNat (n + 1)

def newline : UInt8 := 10

def carriageReturn : UInt8 := 13

def tab : UInt8 := 9

def space : UInt8 := 32

def spaces (n : Nat) : Text := List.replicate n space

/-- The texts of a list, one after the other, with `sep` between neighbours. -/
def join (sep : Text) (ts : List Text) : Text := List.intercalate sep ts

def startsWith (t p : Text) : Bool := p.isPrefixOf t

def endsWith (t s : Text) : Bool := s.isSuffixOf t

/-- What is left of `t` after the leading `p`, or `t` itself if it does not start with `p`. -/
def dropLeading (t p : Text) : Text := if t.startsWith p then t.drop p.length else t

/-- What is left of `t` before the trailing `s`, or `t` itself if it does not end with `s`. -/
def dropTrailing (t s : Text) : Text :=
  if t.endsWith s then t.take (t.length - s.length) else t

/-- The pieces of `t` between the occurrences of `b`; there is one more of them than occurrences. -/
def splitOn (b : UInt8) : Text → List Text
  | [] => [[]]
  | c :: t =>
    match splitOn b t with
    | [] => [[c]]
    | p :: ps => if c = b then [] :: p :: ps else (c :: p) :: ps

def replaceByte (b : UInt8) (r : Text) (t : Text) : Text :=
  t.flatMap fun c => if c = b then r else [c]

def padLeft (n : Nat) (t : Text) : Text := spaces (n - t.length) ++ t

def padRight (n : Nat) (t : Text) : Text := t ++ spaces (n - t.length)

/-- The order of texts: the first differing byte decides, and a shorter text is before its
continuations. -/
def compare : Text → Text → Ordering
  | [], [] => .eq
  | [], _ :: _ => .lt
  | _ :: _, [] => .gt
  | a :: s, b :: t => if a < b then .lt else if b < a then .gt else compare s t

def before (s t : Text) : Bool := compare s t == .lt

def hexValue? (b : UInt8) : Option UInt8 :=
  if 48 ≤ b && b ≤ 57 then some (b - 48)
  else if 97 ≤ b && b ≤ 102 then some (b - 87)
  else if 65 ≤ b && b ≤ 70 then some (b - 55)
  else none

def hexDigit (n : Nat) : UInt8 := if n < 10 then 48 + n.toUInt8 else 87 + n.toUInt8

/-- A number in hexadecimal, padded with zeros to `width` digits. -/
def hexNat (width n : Nat) : Text :=
  (List.range width).reverse.map fun i => hexDigit (n / Nat.pow 16 i % 16)

def hex (t : Text) : Text := t.flatMap fun b => [hexDigit (b.toNat / 16), hexDigit (b.toNat % 16)]

/-- The bytes that `hex` wrote, if the text is an even number of hexadecimal digits. -/
def ofHex? : Text → Option Text
  | [] => some []
  | [_] => none
  | a :: b :: t => do
    let hi ← hexValue? a
    let lo ← hexValue? b
    let rest ← ofHex? t
    return (hi * 16 + lo) :: rest

def isDigitByte (b : UInt8) : Bool := 48 ≤ b && b ≤ 57

def toNat? (t : Text) : Option Nat :=
  if t.isEmpty || !t.all isDigitByte then none
  else some (t.foldl (fun n b => n * 10 + (b.toNat - 48)) 0)

/-! ## Numerals -/

/-- The value of a digit in any base up to thirty-six. -/
def digitValue? (b : UInt8) : Option Nat :=
  if 48 ≤ b && b ≤ 57 then some (b.toNat - 48)
  else if 97 ≤ b && b ≤ 122 then some (b.toNat - 87)
  else if 65 ≤ b && b ≤ 90 then some (b.toNat - 55)
  else none

/-- The sign of a number, minus being true, and the rest; no sign is `none`. -/
def splitSign : Text → Option Bool × Text
  | 45 :: t => (some true, t)
  | 43 :: t => (some false, t)
  | t => (none, t)

def spanDigits (t : Text) : Text × Text := (t.takeWhile isDigitByte, t.dropWhile isDigitByte)

/-- Does a number of a given size fit with its sign, that is, below 2^63 in size or -2^63? -/
def fitsSigned (negative : Bool) (n : Nat) : Bool :=
  if negative then n ≤ Nat.pow 2 63 else n < Nat.pow 2 63

/-! ## Sets of code points

A set of code points is given by its ranges in increasing order, so a look-up stops at the first
range that starts above the code point. -/

/-- Is `n` in one of the ranges? The ranges are in increasing order. -/
def inRanges : List (Nat × Nat) → Nat → Bool
  | [], _ => false
  | (lo, hi) :: rest, n => if n < lo then false else if n ≤ hi then true else inRanges rest n

/-- The value of the range that holds `n`, in a table whose ranges are in increasing order. -/
def rangeValue? {α : Type} : List (Nat × Nat × α) → Nat → Option α
  | [], _ => none
  | (lo, hi, v) :: rest, n =>
    if n < lo then none else if n ≤ hi then some v else rangeValue? rest n

end Text

end DeclCheck
