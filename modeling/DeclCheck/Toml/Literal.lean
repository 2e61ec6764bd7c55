import DeclCheck.Text
import DeclCheck.Toml.Fault

/-!
# Texts, numbers and times of TOML

What a value means once its characters are known: escapes are replaced, and numbers and times are
held against their rules.
-/
namespace DeclCheck.Toml

/-! ## Texts -/

def dropFirstBreak : List Char → List Char
  | '\n' :: cs => cs
  | '\r' :: '\n' :: cs => cs
  | cs => cs

def isBlankOrBreak (c : Char) : Bool := c = ' ' || c = '\t' || c = '\r' || c = '\n'

/-- The text without line breaks behind a backslash, and without the blanks around them. A
backslash behind a backslash starts no escape. -/
def joinLines : Nat → List Char → List Char
  | 0, cs => cs
  | _ + 1, [] => []
  | fuel + 1, '\\' :: '\\' :: cs => '\\' :: '\\' :: joinLines fuel cs
  | fuel + 1, '\\' :: cs =>
    if (cs.takeWhile isBlankOrBreak).contains '\n' then joinLines fuel (cs.dropWhile isBlankOrBreak)
    else '\\' :: joinLines fuel cs
  | fuel + 1, c :: cs => c :: joinLines fuel cs

def hexDigitValue (c : Char) : Nat := ((Text.hexValue? c.toNat.toUInt8).getD 0).toNat

def isHexDigit (c : Char) : Bool := c.toNat < 0x80 && (Text.hexValue? c.toNat.toUInt8).isSome

def codeChar (digits : List Char) : Except Fault Char :=
  let n := digits.foldl (fun n c => n * 16 + hexDigitValue c) 0
  if h : n.isValidChar then .ok (Char.ofNatAux n h)
  else .error (.badCode (Text.ofChars digits))

def replaceEscapes : Nat → List Char → Except Fault (List Char)
  | 0, _ => .ok []
  | _ + 1, [] => .ok []
  | fuel + 1, '\\' :: c :: cs => do
    match c with
    | ' ' | '\t' => .error (.blankEscape c)
    | 'b' => return Char.ofNat 8 :: (← replaceEscapes fuel cs)
    | 't' => return '\t' :: (← replaceEscapes fuel cs)
    | 'n' => return '\n' :: (← replaceEscapes fuel cs)
    | 'f' => return Char.ofNat 12 :: (← replaceEscapes fuel cs)
    | 'r' => return '\r' :: (← replaceEscapes fuel cs)
    | 'u' =>
      let code ← codeChar (cs.take 4)
      return code :: (← replaceEscapes fuel (cs.drop 4))
    | 'U' =>
      let code ← codeChar (cs.take 8)
      return code :: (← replaceEscapes fuel (cs.drop 8))
    | c => return c :: (← replaceEscapes fuel cs)
  | fuel + 1, c :: cs => do return c :: (← replaceEscapes fuel cs)

def plainText (cs : List Char) : Except Fault Text := do
  return Text.ofChars (← replaceEscapes (cs.length + 1) cs)

def longText (cs : List Char) : Except Fault Text :=
  plainText (joinLines (cs.length + 1) (dropFirstBreak cs))

/-! ## Numbers -/

/-- Does each underscore stand between digits, and does the number end in one? -/
def underscoresOk (cs : List Char) : Bool :=
  let (ok, last) := cs.foldl
    (fun (ok, last) c => (ok && (c != '_' || last), isHexDigit c)) (true, false)
  ok && last

/-- The words for numbers that are none. -/
def floatWords : List (List Char) :=
  ["nan", "+nan", "-nan", "inf", "-inf", "+inf"].map String.toList

/-- Does a number start with a zero that is not its only digit and gives no base? -/
def hasLeadingZero : List Char → Bool
  | '0' :: c :: _ => c != 'b' && c != 'o' && c != 'x'
  | s :: '0' :: _ :: _ => s = '-' || s = '+'
  | _ => false

def baseOf : List Char → Nat × List Char
  | '0' :: 'x' :: cs => (16, cs)
  | '0' :: 'o' :: cs => (8, cs)
  | '0' :: 'b' :: cs => (2, cs)
  | cs => (10, cs)

def naturalOf (cs : List Char) : Nat :=
  let (base, digits) := baseOf cs
  (digits.filter (· != '_')).foldl (fun n c => n * base + hexDigitValue c) 0

def integerOf (cs : List Char) : Except Fault Int :=
  let read := Text.ofChars cs
  if !underscoresOk cs then .error (.integerUnderscores read)
  else if hasLeadingZero cs then .error (.integerZeros read)
  else
    let n : Int := match cs with
      | '-' :: ds => -(naturalOf ds : Int)
      | '+' :: ds => naturalOf ds
      | ds => naturalOf ds
    if Text.fitsSigned (n < 0) n.natAbs then .ok n else .error (.integerRange read)

/-- The parts of a number between points and exponent marks, without empty ones. -/
def floatParts (cs : List Char) : List (List Char) :=
  (cs.splitBy fun a b => !isMark a && !isMark b).filter fun p => !p.any isMark
where
  /-- Does the character divide parts? -/
  isMark (c : Char) : Bool := c = '.' || c = 'e' || c = 'E'

def pointsOk : List Char → Bool
  | [] => true
  | '.' :: cs =>
    match cs with
    | c :: _ => c.isDigit && pointsOk cs
    | [] => false
  | _ :: cs => pointsOk cs

/-- Digits, a point with digits, and an exponent: the digits before the exponent without the point,
and the exponent that goes with them. -/
def scientific? (cs : List Char) : Option (Nat × Int) := do
  let cs := match cs with
    | '+' :: cs => cs
    | '-' :: cs => cs
    | cs => cs
  let whole := cs.takeWhile Char.isDigit
  let cs := cs.dropWhile Char.isDigit
  let (fraction, cs) := match cs with
    | '.' :: cs => (cs.takeWhile Char.isDigit, cs.dropWhile Char.isDigit)
    | cs => ([], cs)
  if whole.isEmpty && fraction.isEmpty then none
  let mantissa := naturalOf ('0' :: (whole ++ fraction))
  match cs with
  | [] => return (mantissa, -(fraction.length : Int))
  | c :: cs =>
    if c != 'e' && c != 'E' then none
    let (negative, cs) := match cs with
      | '-' :: cs => (true, cs)
      | '+' :: cs => (false, cs)
      | cs => (false, cs)
    if cs.isEmpty || !cs.all Char.isDigit then none
    let n : Int := naturalOf ('0' :: cs)
    return (mantissa, (if negative then -n else n) - fraction.length)

/-- Is a number too large for 53 significant bits and an exponent of eleven? -/
def isTooLarge (mantissa : Nat) (exponent : Int) : Bool :=
  let digits := (Text.ofNat mantissa).length
  if mantissa = 0 || digits + exponent < 300 then false
  else if 400 < digits + exponent then true
  else
    let limit := Nat.pow 2 1024 - Nat.pow 2 970
    match exponent with
    | .ofNat e => limit ≤ mantissa * Nat.pow 10 e
    | .negSucc e => limit * Nat.pow 10 (e + 1) ≤ mantissa

/-- Holds a number with a point or an exponent against the rules. -/
def checkFloat (cs : List Char) : Except Fault Unit := do
  let read := Text.ofChars cs
  let parts := floatParts cs
  if parts.any fun p => !floatWords.contains p && !underscoresOk p then
    throw (.floatUnderscores read)
  if (parts.head?.map hasLeadingZero).getD false then throw (.floatZeros read)
  if !pointsOk cs then throw (.floatPoint read)
  if floatWords.contains cs then return
  match scientific? (cs.filter (· != '_')) with
  | none => throw (.badFloat read)
  | some (m, e) => if isTooLarge m e then throw (.floatRange read)

/-! ## Times -/

def twoDigits? : List Char → Option (Nat × List Char)
  | a :: b :: cs =>
    if a.isDigit && b.isDigit then some (naturalOf ['0', a] * 10 + naturalOf ['0', b], cs) else none
  | _ => none

def oneOrTwoDigits? : List Char → Option (Nat × List Char)
  | a :: cs =>
    if !a.isDigit then none
    else
      match twoDigits? (a :: cs) with
      | some r => some r
      | none => some (naturalOf ['0', a], cs)
  | [] => none

def behind? (c : Char) : List Char → Option (List Char)
  | d :: cs => if d = c then some cs else none
  | [] => none

def daysIn (year month : Nat) : Nat :=
  if month = 2 then
    if year % 4 = 0 && (year % 100 != 0 || year % 400 = 0) then 29 else 28
  else if month = 4 || month = 6 || month = 9 || month = 11 then 30 else 31

def afterDate? (cs : List Char) : Option (List Char) := do
  let (century, cs) ← twoDigits? cs
  let (year, cs) ← twoDigits? cs
  let (month, cs) ← twoDigits? (← behind? '-' cs)
  let (day, cs) ← twoDigits? (← behind? '-' cs)
  if 1 ≤ month && month ≤ 12 && 1 ≤ day && day ≤ daysIn (century * 100 + year) month then cs
  else none

def afterClock? (cs : List Char) : Option (List Char) := do
  let (hour, cs) ← oneOrTwoDigits? cs
  let (minute, cs) ← twoDigits? (← behind? ':' cs)
  let (second, cs) ← twoDigits? (← behind? ':' cs)
  if hour < 24 && minute < 60 && second < 60 then
    match cs with
    | '.' :: c :: rest => if c.isDigit then rest.dropWhile Char.isDigit else cs
    | cs => cs
  else none

def isZone : List Char → Bool
  | ['Z'] => true
  | s :: cs =>
    (s = '+' || s = '-') && ((do
      let (hour, cs) ← twoDigits? cs
      let (minute, cs) ← twoDigits? (← behind? ':' cs)
      return hour ≤ 24 && minute ≤ 60 && cs.isEmpty) : Option Bool).getD false
  | [] => false

/-- Is it a date, a time, or both with a zone or without? -/
def isTime (cs : List Char) : Bool :=
  match afterDate? cs with
  | some [] => true
  | some rest =>
    match (behind? 'T' rest).bind afterClock? with
    | some zone => zone.isEmpty || isZone zone
    | none => false
  | none => afterClock? cs == some []

/-- The one spelling of the marks in a time. -/
def timeMark (c : Char) : Char :=
  if c = 'z' then 'Z' else if c = 't' || c = ' ' then 'T' else c

def checkTime (cs : List Char) : Except Fault Unit :=
  let blank (c : Char) : Bool := c = ' '
  let trimmed := ((cs.dropWhile blank).reverse.dropWhile blank).reverse
  let marked := trimmed.map timeMark
  if isTime marked then .ok () else .error (.badTime (Text.ofChars marked))

end DeclCheck.Toml
