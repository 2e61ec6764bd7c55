import DeclCheck.Text.Normal.CombiningClass
import DeclCheck.Text.Normal.Pairs
import DeclCheck.Text.Normal.Singletons
import DeclCheck.Text.Utf8

/-!
# Composed normal form

Two spellings of a text that differ only in how accents and syllables are cut into code points
have one normal form: every character is taken apart, the marks after a character are put in the
order of their classes, and what can be joined is joined. No more than thirty marks in a row
stay together; a joiner parts a longer run. Stray bytes stay where they are and join with nothing.

Whoever numbers names takes their normal form from an instance. The form of this module is used
where no other is given.
-/
namespace DeclCheck.Text

/-! ## Hangul syllables -/

def hangulBase : Nat := 0xAC00

def hangulCount : Nat := 11172

def hangulParts (n : Nat) : List Nat :=
  let s := n - hangulBase
  let lead := 0x1100 + s / 588
  let vowel := 0x1161 + s % 588 / 28
  if s % 28 = 0 then [lead, vowel] else [lead, vowel, 0x11A7 + s % 28]

def isHangul (n : Nat) : Bool := hangulBase ≤ n && n < hangulBase + hangulCount

def hangulJoin? (a b : Nat) : Option Nat :=
  if 0x1100 ≤ a && a < 0x1113 && 0x1161 ≤ b && b < 0x1176 then
    some (hangulBase + ((a - 0x1100) * 21 + (b - 0x1161)) * 28)
  else if isHangul a && (a - hangulBase) % 28 == 0 && 0x11A8 ≤ b && b < 0x11C3 then
    some (a + (b - 0x11A7))
  else none

/-! ## Taking apart -/

def pairOf? : List (Nat × Nat × Nat) → Nat → Option (Nat × Nat)
  | [], _ => none
  | (c, a, b) :: rest, n =>
    if n < c then none else if n = c then some (a, b) else pairOf? rest n

/-- The code point that a code point stands for. -/
def singletonOf? : List (Nat × Nat) → Nat → Option Nat
  | [], _ => none
  | (c, a) :: rest, n =>
    if n < c then none else if n = c then some a else singletonOf? rest n

/-- The code points that a code point stands for, taken apart `depth` times. -/
def takeApart : Nat → Nat → List Nat
  | 0, n => [n]
  | depth + 1, n =>
    if n < 0xC0 then [n]
    else if isHangul n then hangulParts n
    else
      match pairOf? canonicalPairs n with
      | some (a, b) => takeApart depth a ++ takeApart depth b
      | none =>
        match singletonOf? canonicalSingletons n with
        | some a => takeApart depth a
        | none => [n]

/-- The code points that a code point stands for, none of which stands for others. No chain is
longer than three, so four steps reach its end. -/
def fullyApart (n : Nat) : List Nat := takeApart 4 n

/-! ## Runs of marks -/

/-- The longest run of marks that stays together. -/
def longestRun : Nat := 30

/-- The joiner that parts a longer run. -/
def runJoiner : Nat := 0x34F

/-- What goes on with a run though its class is zero: vowels and consonants that join with what
stands before them, and their forms in other widths. -/
def runRanges : List (Nat × Nat) := [
  (0x9BE, 0x9BE), (0x9D7, 0x9D7), (0xB3E, 0xB3E), (0xB56, 0xB57), (0xBBE, 0xBBE), (0xBD7, 0xBD7),
  (0xCC2, 0xCC2), (0xCD5, 0xCD6), (0xD3E, 0xD3E), (0xD57, 0xD57), (0xDCF, 0xDCF), (0xDDF, 0xDDF),
  (0x102E, 0x102E), (0x1161, 0x1175), (0x11A8, 0x11C2), (0x1B35, 0x1B35), (0x3133, 0x3133),
  (0x3135, 0x3136), (0x313A, 0x313F), (0x314F, 0x3163), (0xFF9E, 0xFF9F), (0xFFA3, 0xFFA3),
  (0xFFA5, 0xFFA6), (0xFFAA, 0xFFAF), (0xFFC2, 0xFFC7), (0xFFCA, 0xFFCF), (0xFFD2, 0xFFD7),
  (0xFFDA, 0xFFDC), (0x11127, 0x11127), (0x1133E, 0x1133E), (0x11357, 0x11357), (0x114B0, 0x114B0),
  (0x114BA, 0x114BA), (0x114BD, 0x114BD), (0x115AF, 0x115AF), (0x11930, 0x11930)]

/-- Code points that are one mark behind a character, in another form. -/
def oneMarkRanges : List (Nat × Nat) := [
  (0xA8, 0xA8), (0xAF, 0xAF), (0xB4, 0xB4), (0xB8, 0xB8), (0x1C4, 0x1C6), (0x2D8, 0x2DD),
  (0x37A, 0x37A), (0x384, 0x384), (0x1FBD, 0x1FBD), (0x1FBF, 0x1FC0), (0x1FFE, 0x1FFE),
  (0x2017, 0x2017), (0x203E, 0x203E), (0x309B, 0x309C), (0x326E, 0x327E), (0x3304, 0x3304),
  (0x3307, 0x3307), (0x3310, 0x3310), (0x331E, 0x331E), (0x3321, 0x3321), (0x3332, 0x3332),
  (0x333B, 0x333B), (0x3340, 0x3340), (0x334B, 0x334B), (0x334E, 0x334E), (0xFBA4, 0xFBA5),
  (0xFBB0, 0xFBB1), (0xFC5B, 0xFC5D), (0xFC90, 0xFC90), (0xFCD9, 0xFCD9), (0xFD3C, 0xFD3D),
  (0xFE49, 0xFE4C), (0xFE70, 0xFE72), (0xFE74, 0xFE74), (0xFE76, 0xFE7F), (0xFE81, 0xFE8C),
  (0xFEF5, 0xFEFA), (0xFFE3, 0xFFE3), (0x1F213, 0x1F213)]

/-- Code points that are two marks behind a character, in another form. -/
def twoMarksRanges : List (Nat × Nat) := [
  (0xF77, 0xF77), (0xF79, 0xF79), (0xFC5E, 0xFC63), (0xFCF2, 0xFCF4)]

/-- Does the code point go on with a run? -/
def goesOn (n : Nat) : Bool := combiningClass n ≠ 0 || inRanges runRanges n

/-- How many marks a code point brings along that does not go on with a run. -/
def ownMarks (n : Nat) : Nat :=
  if inRanges twoMarksRanges n then 2 else if inRanges oneMarkRanges n then 1 else 0

/-- How long the run is after some code points, if it is `seen` long before them. -/
def runAfter (seen : Nat) (ns : List Nat) : Nat :=
  ns.foldl (fun k n => if goesOn n then k + 1 else ownMarks n) seen

/-- Puts a joiner before each character that would make the run too long. The characters are taken
apart, and the run is `seen` long before them. -/
def partRuns : Nat → List (List Nat) → List Nat
  | _, [] => []
  | seen, parts :: rest =>
    if runAfter seen parts ≤ longestRun then parts ++ partRuns (runAfter seen parts) rest
    else runJoiner :: (parts ++ partRuns (runAfter 0 parts) rest)

/-- Moves a mark behind the marks at the front of a list whose class is below its own. -/
def sinkMark (n : Nat) : List Nat → List Nat
  | [] => [n]
  | m :: rest =>
    if combiningClass m ≠ 0 && combiningClass m < combiningClass n then m :: sinkMark n rest
    else n :: m :: rest

/-- Puts the marks of each run in the order of their classes; marks of one class keep theirs. -/
def orderMarks : List Nat → List Nat
  | [] => []
  | n :: rest =>
    if combiningClass n = 0 then n :: orderMarks rest else sinkMark n (orderMarks rest)

/-! ## Joining -/

/-- The code point that stands for a pair and may be written for it. -/
def composite? (a b : Nat) : Option Nat :=
  match hangulJoin? a b with
  | some c => some c
  | none =>
    let isPair : Nat × Nat × Nat → Bool := fun (c, x, y) =>
      x == a && y == b && !excludedComposites.contains c
    match canonicalPairs.find? isPair with
    | some (c, _, _) => some c
    | none => none

/-- Joins marks and vowels to the character before them. The character waits with the marks
behind it that did not join, the last of them first. -/
def joinFrom (starter : Nat) (marks : List Nat) : List Nat → List Nat
  | [] => starter :: marks.reverse
  | n :: rest =>
    let cls := combiningClass n
    let reaches :=
      match marks with
      | [] => true
      | m :: _ => combiningClass m < cls
    match if reaches then composite? starter n else none with
    | some c => joinFrom c marks rest
    | none =>
      if cls = 0 then starter :: (marks.reverse ++ joinFrom n [] rest)
      else joinFrom starter (n :: marks) rest

/-- Joins what can be joined. Marks before the first character join with nothing. -/
def joinAll : List Nat → List Nat
  | [] => []
  | n :: rest => if combiningClass n = 0 then joinFrom n [] rest else n :: joinAll rest

def normalRun (cs : List Char) : Text :=
  ofChars ((joinAll (orderMarks (partRuns 0 (cs.map fun c => fullyApart c.toNat)))).map
    Char.ofNat)

/-- The normal form of a list of pieces, after the characters `run` (the last one first). -/
def normalPieces (run : List Char) : List Piece → Text
  | [] => normalRun run.reverse
  | .char c :: rest => normalPieces (c :: run) rest
  | .stray b :: rest => normalRun run.reverse ++ b :: normalPieces [] rest

/-- The composed normal form of a text. ASCII texts are their own. -/
def composed (t : Text) : Text := if t.all (· < 0x80) then t else normalPieces [] (pieces t)

/-! ## The normal form of names -/

/-- How texts are brought into their normal form. -/
class NormalForm where
  form : Text → Text

instance (priority := low) composedForm : NormalForm := ⟨composed⟩

def normal [NormalForm] (t : Text) : Text := NormalForm.form t

end DeclCheck.Text
