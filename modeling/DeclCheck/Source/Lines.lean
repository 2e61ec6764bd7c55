import DeclCheck.Text

/-!
# Lines and positions

A line ends with a line feed. Positions are one-based pairs of a line and a column, the column
in bytes; offsets, lines and columns are 32-bit words, and sums of them wrap. The line feed that
ends a line is its last position.
-/
namespace DeclCheck

/-- A line and a column, both from one, the column in bytes. -/
structure LineCol where
  line : UInt32 := 0
  col : UInt32 := 0
  deriving DecidableEq, Repr, Inhabited

namespace Lines

/-- The offsets of the line feeds of a text, counted from `n`. -/
def breaksFrom : Nat → Text → List UInt32
  | _, [] => []
  | n, b :: t =>
    if b = Text.newline then n.toUInt32 :: breaksFrom (n + 1) t else breaksFrom (n + 1) t

def breaks (t : Text) : List UInt32 := breaksFrom 0 t

/-- The line feeds strictly before an offset, the last of them first. The list is increasing. -/
def before (off : UInt32) : List UInt32 → List UInt32 → List UInt32
  | seen, [] => seen
  | seen, b :: rest => if b < off then before off (b :: seen) rest else seen

/-- The position of an offset in a text with the given line feeds. -/
def position (breaks : List UInt32) (off : UInt32) : LineCol :=
  let seen := before off [] breaks
  let lineStart :=
    match seen with
    | [] => 0
    | b :: _ => b + 1
  { line := (seen.length + 1).toUInt32, col := off - lineStart + 1 }

def start? (breaks : List UInt32) (line : UInt32) : Option UInt32 :=
  if line = 0 then none
  else if line = 1 then some 0
  else (breaks[line.toNat - 2]?).map (· + 1)

/-- Where a line ends: at its line feed, or at the end of a text of `size` bytes. -/
def stop (breaks : List UInt32) (size line : UInt32) : UInt32 :=
  (breaks[line.toNat - 1]?).getD size

/-- The offset of a position. A column past the end of its line is at that end, and a line past
the last one is at the end of the text. -/
def offset (breaks : List UInt32) (size : UInt32) (pos : LineCol) : UInt32 :=
  if pos.line = 0 then 0
  else
    match start? breaks pos.line with
    | none => size
    | some lineStart =>
      let lineEnd := stop breaks size pos.line
      let col := if pos.col = 0 then 1 else pos.col
      let off := lineStart + col - 1
      if lineEnd < off then lineEnd else off

/-- A line of a text without its line feed; empty if there is no such line. -/
def line (t : Text) (breaks : List UInt32) (n : UInt32) : Text :=
  match start? breaks n with
  | none => []
  | some first =>
    let last := stop breaks t.length.toUInt32 n
    if last < first then [] else (t.drop first.toNat).take (last.toNat - first.toNat)

/-- The text without each carriage return that stands right before a line feed. -/
def dropReturns : Text → Text
  | [] => []
  | b :: t =>
    match t with
    | c :: _ =>
      if b = Text.carriageReturn && c = Text.newline then dropReturns t else b :: dropReturns t
    | [] => [b]

/-- Is there a carriage return right before a line feed? -/
def hasReturns : Text → Bool
  | [] => false
  | b :: t =>
    match t with
    | c :: _ => (b = Text.carriageReturn && c = Text.newline) || hasReturns t
    | [] => false

/-- The mark that some editors put at the start of a UTF-8 text. -/
def byteOrderMark : Text := [0xEF, 0xBB, 0xBF]

end Lines

end DeclCheck
