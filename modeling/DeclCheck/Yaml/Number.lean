import DeclCheck.Text

/-!
# Numbers and dates among scalars

Which plain scalars read as whole numbers, as decimal fractions that fit a double, and as dates.
Only the kind is asked for, so no value is computed beyond what its range needs.
-/
namespace DeclCheck.Yaml

def digitsValue? (base : Nat) (t : Text) : Option Nat :=
  if t.isEmpty then none
  else t.foldl (fun acc b => do
    let n ← acc
    let d ← Text.digitValue? b
    if d < base then some (n * base + d) else none) (some 0)

/-- The base that the start of a number shows, and its digits. -/
def splitBase : Text → Nat × Text
  | 48 :: x :: rest =>
    if x = 120 || x = 88 then (16, rest)
    else if x = 98 || x = 66 then (2, rest)
    else if x = 111 || x = 79 then (8, rest)
    else (8, x :: rest)
  | t => (10, t)

/-- A whole number: does it fit sixty-four bits with a sign, or only without? -/
inductive Whole where
  | signed
  | unsigned
  deriving DecidableEq, Repr

/-- Does the text spell a whole number, with the base in front of its digits? -/
def whole? (t : Text) : Option Whole :=
  let (sign, body) := Text.splitSign t
  let (base, digits) := splitBase body
  match digitsValue? base digits with
  | none => none
  | some n =>
    if Text.fitsSigned (sign == some true) n then some .signed
    else if sign.isNone && n < Nat.pow 2 64 then some .unsigned
    else none

/-- Does the text spell a whole number in the base, behind an optional minus sign? -/
def wholeInBase? (base : Nat) (mark : Text) (t : Text) : Option Whole :=
  let negative := t.startsWith ("-" ++ mark)
  if !negative && !t.startsWith mark then none
  else
    let body := t.drop (mark.length + if negative then 1 else 0)
    let (sign, digits) := Text.splitSign body
    if negative && sign.isSome then none
    else
      match digitsValue? base digits with
      | none => none
      | some n =>
        if Text.fitsSigned (negative || sign == some true) n then some .signed
        else if !negative && sign.isNone && n < Nat.pow 2 64 then some .unsigned
        else none

/-! ## Decimal fractions -/

/-- A decimal fraction: its digits without the point, how many of them stand behind it, and the
exponent. -/
structure Fraction where
  digits : Text
  scale : Nat
  exponent : Int

/-- The exponent at the end of a fraction; an absent one is zero. -/
def exponent? : Text → Option Int
  | [] => some 0
  | e :: t =>
    if e = 101 || e = 69 then
      let (sign, digits) := Text.splitSign t
      if digits.all Text.isDigitByte then
        (Text.toNat? digits).map fun n => if sign == some true then -(n : Int) else n
      else none
    else none

/-- The fraction that a text spells: digits with at most one point among them and at least one
digit, behind an optional sign and in front of an optional exponent. -/
def fraction? (t : Text) : Option Fraction :=
  let (_, body) := Text.splitSign t
  let (whole, rest) := Text.spanDigits body
  let (part, rest) :=
    match rest with
    | 46 :: r => Text.spanDigits r
    | r => ([], r)
  if whole.isEmpty && part.isEmpty then none
  else (exponent? rest).map fun e => ⟨whole ++ part, part.length, e⟩

/-- Does the fraction round to a finite double? The least number that does not is
2^1024 - 2^970. -/
def Fraction.isFinite (f : Fraction) : Bool :=
  let digits := f.digits.dropWhile (· == 48)
  let point : Int := digits.length - f.scale + f.exponent
  if digits.isEmpty || point < 300 then true
  else if 320 < point then false
  else
    let n := (Text.toNat? digits).getD 0
    let shift : Int := f.exponent - f.scale
    let limit := Nat.pow 2 1024 - Nat.pow 2 970
    if 0 ≤ shift then n * Nat.pow 10 shift.toNat < limit
    else n < limit * Nat.pow 10 (-shift).toNat

/-- Do the underscores of a number stand between digits only? -/
def underscoresFit (t : Text) : Bool :=
  let rec go : Option UInt8 → Text → Bool
    | prev, [] => prev != some 95
    | prev, b :: rest =>
      let digit := Text.isDigitByte b
      let prevDigit := match prev with
        | some p => Text.isDigitByte p
        | none => false
      if b = 95 then prevDigit && go (some b) rest
      else if prev == some 95 then digit && go (some b) rest
      else go (some b) rest
  go none (Text.splitSign t).2

/-- Does a text that starts with a point spell a finite fraction? -/
def isPointFraction (t : Text) : Bool :=
  underscoresFit t &&
    match fraction? (t.filter (· != 95)) with
    | some f => f.isFinite
    | none => false

/-- Does the text spell a finite fraction with nothing but digits around its point? -/
def isFraction (t : Text) : Bool :=
  match fraction? t with
  | some f => f.isFinite
  | none => false

/-! ## Dates -/

/-- A number of one or two digits at the front of a text. -/
def shortNumber? : Text → Option (Nat × Text)
  | a :: b :: t =>
    if !Text.isDigitByte a then none
    else if Text.isDigitByte b then some ((a.toNat - 48) * 10 + (b.toNat - 48), t)
    else some (a.toNat - 48, b :: t)
  | [a] => if Text.isDigitByte a then some (a.toNat - 48, []) else none
  | [] => none

def behind? (b : UInt8) : Text → Option Text
  | c :: t => if c = b then some t else none
  | [] => none

def daysIn (year month : Nat) : Nat :=
  if month = 2 then
    if year % 4 = 0 && (year % 100 ≠ 0 || year % 400 = 0) then 29 else 28
  else if month = 4 || month = 6 || month = 9 || month = 11 then 30
  else 31

/-- A date at the front of a text: four digits, a month and a day, with hyphens between. -/
def date? (t : Text) : Option Text := do
  let digits := t.takeWhile Text.isDigitByte
  if digits.length ≠ 4 then none
  else
    let year ← Text.toNat? digits
    let t ← behind? 45 (t.drop 4)
    let (month, t) ← shortNumber? t
    let t ← behind? 45 t
    let (day, t) ← shortNumber? t
    if 1 ≤ month && month ≤ 12 && 1 ≤ day && day ≤ daysIn year month then some t else none

/-- A time of day at the front of a text, with any number of digits of a second. -/
def time? (t : Text) : Option Text := do
  let (hour, t) ← shortNumber? t
  let t ← behind? 58 t
  let (minute, t) ← shortNumber? t
  let t ← behind? 58 t
  let (second, t) ← shortNumber? t
  if 24 ≤ hour || 60 ≤ minute || 60 ≤ second then none
  else
    match t with
    | p :: d :: rest =>
      if (p = 46 || p = 44) && Text.isDigitByte d then some (rest.dropWhile Text.isDigitByte)
      else some t
    | _ => some t

/-- A time zone: `Z`, or a sign with two digits of hours and two of minutes. -/
def isZone : Text → Bool
  | [90] => true
  | [s, a, b, 58, c, d] =>
    (s = 43 || s = 45) && [a, b, c, d].all Text.isDigitByte &&
      (a.toNat - 48) * 10 + (b.toNat - 48) ≤ 24 && (c.toNat - 48) * 10 + (d.toNat - 48) ≤ 60
  | _ => false

/-- Does the text spell a date, alone or with a time of day? -/
def isTimestamp (t : Text) : Bool :=
  match date? t with
  | none => false
  | some [] => true
  | some (b :: rest) =>
    if b = 84 || b = 116 then
      match time? rest with
      | some zone => isZone zone
      | none => false
    else if b = 32 then time? (rest.dropWhile (· == 32)) == some []
    else false

end DeclCheck.Yaml
