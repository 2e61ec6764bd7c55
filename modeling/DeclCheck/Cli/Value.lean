import DeclCheck.Text
import DeclCheck.Text.Quoted

/-!
# Values of flags

A flag takes a text, a whole number, a truth value or a duration. Numbers may show their base in
front, and underscores may divide their digits. Durations are sums of decimal fractions, each with
a unit.
-/
namespace DeclCheck.Cli

inductive ValueFault where
  | badNumber (text : Text)
  | numberRange (text : Text)
  | badTruth (text : Text)
  | badDuration (text : Text)
  | missingUnit (text : Text)
  | unknownUnit (unit text : Text)
  deriving DecidableEq, Repr

/-- A byte of a duration between quotes: only printable ASCII is shown as it is. -/
def quotedByte (b : UInt8) : Text :=
  if b < 32 || 128 ≤ b then "\\x" ++ Text.hex [b]
  else if b = 34 || b = 92 then [92, b]
  else [b]

def quotedDuration (t : Text) : Text := "\"" ++ t.flatMap quotedByte ++ "\""

def ValueFault.message : ValueFault → Text
  | badNumber t => "strconv.ParseInt: parsing " ++ t.quote ++ ": invalid syntax"
  | numberRange t => "strconv.ParseInt: parsing " ++ t.quote ++ ": value out of range"
  | badTruth t => "strconv.ParseBool: parsing " ++ t.quote ++ ": invalid syntax"
  | badDuration t => "time: invalid duration " ++ quotedDuration t
  | missingUnit t => "time: missing unit in duration " ++ quotedDuration t
  | unknownUnit u t =>
    "time: unknown unit " ++ quotedDuration u ++ " in duration " ++ quotedDuration t

/-! ## Whole numbers -/

/-- The base of a number and its digits. A zero in front of further digits shows base eight, and a
letter between them another one. -/
def splitBase : Text → Nat × Text
  | 48 :: x :: d :: ds =>
    if x = 120 || x = 88 then (16, d :: ds)
    else if x = 98 || x = 66 then (2, d :: ds)
    else if x = 111 || x = 79 then (8, d :: ds)
    else (8, x :: d :: ds)
  | 48 :: ds => (8, ds)
  | ds => (10, ds)

/-- Takes one more digit of a number below 2^64; an underscore is passed over. -/
def takeDigit (whole : Text) (base n : Nat) (b : UInt8) : Except ValueFault Nat :=
  if b = 95 then .ok n
  else
    match Text.digitValue? b with
    | none => .error (.badNumber whole)
    | some d =>
      if base ≤ d then .error (.badNumber whole)
      else if Nat.pow 2 64 ≤ n * base + d then .error (.numberRange whole)
      else .ok (n * base + d)

/-- Does every underscore stand alone, with something on both sides? -/
def underscoresApart : Text → Bool
  | [] => true
  | 95 :: _ => false
  | [_] => true
  | _ :: 95 :: t => !t.isEmpty && underscoresApart t
  | _ :: t => underscoresApart t

def readNumber (t : Text) : Except ValueFault Int := do
  let (sign, body) := Text.splitSign t
  let negative := sign == some true
  if body.isEmpty then throw (.badNumber t)
  let (base, digits) := splitBase body
  let n ← digits.foldlM (takeDigit t base) 0
  if !underscoresApart body then throw (.badNumber t)
  if !Text.fitsSigned negative n then throw (.numberRange t)
  return if negative then -(n : Int) else n

/-! ## Truth values -/

def truths : List (Text × Bool) :=
  [("1", true), ("t", true), ("T", true), ("TRUE", true), ("true", true), ("True", true),
   ("0", false), ("f", false), ("F", false), ("FALSE", false), ("false", false),
   ("False", false)]

def readTruth (t : Text) : Except ValueFault Bool :=
  match truths.find? (·.1 == t) with
  | some (_, b) => .ok b
  | none => .error (.badTruth t)

/-! ## Durations -/

/-- The units of a duration in nanoseconds. The sign for a millionth has two code points. -/
def units : List (Text × Nat) :=
  [("ns", 1), ("us", 1000), ("µs", 1000), ("μs", 1000), ("ms", 1000000),
   ("s", 1000000000), ("m", 60000000000), ("h", 3600000000000)]

def digitsNumber (ds : Text) : Nat := ds.foldl (fun n b => n * 10 + (b.toNat - 48)) 0

/-- How many digits behind the point count. -/
def maxFraction : Nat := 18

/-- The whole digits of a term, those behind its point, its unit and what follows. A unit goes up to
the next digit or point. -/
def splitTerm (t : Text) : Text × Text × Text × Text :=
  let (whole, rest) := Text.spanDigits t
  let (fraction, rest) := match rest with
    | 46 :: r => Text.spanDigits r
    | r => ([], r)
  let inUnit (b : UInt8) : Bool := b != 46 && !Text.isDigitByte b
  (whole, fraction, rest.takeWhile inUnit, rest.dropWhile inUnit)

/-- The size of a term of a duration in nanoseconds, and what follows it. -/
def takeTerm (all t : Text) : Except ValueFault (Nat × Text) := do
  let (whole, fraction, unit, rest) := splitTerm t
  let n := digitsNumber whole
  if (whole.isEmpty && fraction.isEmpty) || Nat.pow 2 63 < n then throw (.badDuration all)
  if unit.isEmpty then throw (.missingUnit all)
  let some (_, size) := units.find? (·.1 == unit) | throw (.unknownUnit unit all)
  let digits := fraction.take maxFraction
  let nanos := n * size + digitsNumber digits * size / Nat.pow 10 digits.length
  if Nat.pow 2 63 < nanos then throw (.badDuration all)
  return (nanos, rest)

/-- Adds at most `fuel` terms of a duration to a sum. -/
def sumTerms (all : Text) : Nat → Nat → Text → Except ValueFault Nat
  | 0, sum, _ => .ok sum
  | _ + 1, sum, [] => .ok sum
  | fuel + 1, sum, t => do
    let (nanos, rest) ← takeTerm all t
    if Nat.pow 2 63 < sum + nanos then throw (.badDuration all)
    sumTerms all fuel (sum + nanos) rest

/-- The duration that a text spells, in nanoseconds. Only zero needs no unit. -/
def readDuration (t : Text) : Except ValueFault Int := do
  let (sign, body) := Text.splitSign t
  let negative := sign == some true
  if body == Text.ofString "0" then return 0
  if body.isEmpty then throw (.badDuration t)
  let nanos ← sumTerms t body.length 0 body
  if !Text.fitsSigned negative nanos then throw (.badDuration t)
  return if negative then -(nanos : Int) else nanos

end DeclCheck.Cli
