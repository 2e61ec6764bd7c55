import DeclCheck.Cli.Value

/-!
# Flags

What flags a command line may hold, and how they are taken out of it. A flag has a long name behind
two hyphens and perhaps a letter behind one; its value follows a sign of equality or is the next
argument. A truth value takes no next argument and is true where nothing is said. Flags may stand
behind other arguments, up to a pair of hyphens.
-/
namespace DeclCheck.Cli

inductive FlagKind where
  | text
  | number
  | truth
  | duration
  deriving DecidableEq, Repr, Inhabited

inductive FlagValue where
  | text (t : Text)
  | number (n : Int)
  | truth (b : Bool)
  /-- In nanoseconds. -/
  | duration (nanos : Int)
  deriving DecidableEq, Repr, Inhabited

def FlagKind.read (k : FlagKind) (t : Text) : Except ValueFault FlagValue :=
  match k with
  | text => .ok (.text t)
  | number => (readNumber t).map .number
  | truth => (readTruth t).map .truth
  | duration => (readDuration t).map .duration

/-- A flag: its names, what it takes, the value that is shown as its default, and its purpose. -/
structure Flag where
  name : Text
  letter : Option UInt8 := none
  kind : FlagKind
  shownDefault : Text := []
  purpose : Text
  deriving Repr, Inhabited

def Flag.names (f : Flag) : Text :=
  match f.letter with
  | some c => Text.ofString "-" ++ [c] ++ ", --" ++ f.name
  | none => "--" ++ f.name

inductive FlagFault where
  | badForm (arg : Text)
  | unknown (name : Text)
  | unknownLetter (letter : UInt8) (group : Text)
  | missingValue (name : Text)
  | missingLetterValue (letter : UInt8) (group : Text)
  | badValue (names value : Text) (fault : ValueFault)
  deriving Repr

def FlagFault.message : FlagFault → Text
  | badForm arg => "bad flag syntax: " ++ arg
  | unknown name => "unknown flag: --" ++ name
  | unknownLetter c group =>
    "unknown shorthand flag: " ++ Text.quoteSingle (Char.ofNat c.toNat) ++ " in -" ++ group
  | missingValue name => "flag needs an argument: --" ++ name
  | missingLetterValue c group =>
    "flag needs an argument: " ++ Text.quoteSingle (Char.ofNat c.toNat) ++ " in -" ++ group
  | badValue names value fault =>
    "invalid argument " ++ value.quote ++ " for " ++ names.quote ++ " flag: " ++ fault.message

/-! ## Flags that are set -/

/-- The flags that were set, the last one first. -/
structure FlagSettings where
  values : List (Text × FlagValue) := []
  deriving Repr, Inhabited

namespace FlagSettings

def get? (s : FlagSettings) (name : Text) : Option FlagValue :=
  (s.values.find? (·.1 == name)).map (·.2)

def isSet (s : FlagSettings) (name : Text) : Bool := (s.get? name).isSome

def text (s : FlagSettings) (name default : Text) : Text :=
  match s.get? name with
  | some (.text t) => t
  | _ => default

def number (s : FlagSettings) (name : Text) (default : Int) : Int :=
  match s.get? name with
  | some (.number n) => n
  | _ => default

def truth (s : FlagSettings) (name : Text) (default : Bool) : Bool :=
  match s.get? name with
  | some (.truth b) => b
  | _ => default

def set (s : FlagSettings) (f : Flag) (value : Text) : Except FlagFault FlagSettings :=
  match f.kind.read value with
  | .ok v => .ok { values := (f.name, v) :: s.values }
  | .error fault => .error (.badValue f.names value fault)

end FlagSettings

/-! ## Taking flags -/

/-- What a flag of truth values has where nothing is said. -/
def impliedTruth : Text := "true"

/-- The name in front of a sign of equality and the value behind it, if there is one. -/
def splitValue (t : Text) : Text × Option Text :=
  match t.dropWhile (· != 61) with
  | [] => (t, none)
  | _ :: value => (t.takeWhile (· != 61), some value)

/-- Is the argument a flag or the end of the flags? A hyphen alone is not. -/
def isFlag : Text → Bool
  | 45 :: _ :: _ => true
  | _ => false

def endOfFlags : Text := "--"

/-- Takes a long flag, given its text behind the hyphens and the next argument, and tells whether
that is its value. -/
def takeLong (known : List Flag) (next : Option Text) (body : Text) (s : FlagSettings) :
    Except FlagFault (FlagSettings × Bool) := do
  if body.head? == some 45 || body.head? == some 61 then
    throw (.badForm (endOfFlags ++ body))
  let (name, value) := splitValue body
  let some f := known.find? (·.name == name) | throw (.unknown name)
  match value, f.kind, next with
  | some v, _, _ => return (← s.set f v, false)
  | none, .truth, _ => return (← s.set f impliedTruth, false)
  | none, _, some v => return (← s.set f v, true)
  | none, _, none => throw (.missingValue name)

/-- Takes a group of letters, given the next argument, and tells whether that is the value of the
last of them. -/
def takeLetters (known : List Flag) (next : Option Text) :
    Text → FlagSettings → Except FlagFault (FlagSettings × Bool)
  | [], s => return (s, false)
  | c :: rest, s => do
    let some f := known.find? (·.letter == some c) | throw (.unknownLetter c (c :: rest))
    match rest with
    | 61 :: b :: value => return (← s.set f (b :: value), false)
    | _ =>
      if f.kind = .truth then takeLetters known next rest (← s.set f impliedTruth)
      else if !rest.isEmpty then return (← s.set f rest, false)
      else
        match next with
        | some v => return (← s.set f v, true)
        | none => throw (.missingLetterValue c [c])

/-- Groups of letters with this start are for test runners and are passed over. -/
def testGroup : Text := "test."

/-- Takes one flag, given the next argument, and tells whether that is its value. -/
def takeFlag (known : List Flag) (next : Option Text) (arg : Text) (s : FlagSettings) :
    Except FlagFault (FlagSettings × Bool) :=
  if arg.startsWith endOfFlags then takeLong known next (arg.drop 2) s
  else if Text.startsWith (arg.drop 1) testGroup then .ok (s, false)
  else takeLetters known next (arg.drop 1) s

/-- Takes all flags out of a command line and gives them with the other arguments. -/
def takeFlags (known : List Flag) :
    List Text → FlagSettings → Except FlagFault (FlagSettings × List Text)
  | [], s => return (s, [])
  | arg :: rest, s => do
    if arg == endOfFlags then return (s, rest)
    if !isFlag arg then
      let (s, others) ← takeFlags known rest s
      return (s, arg :: others)
    let (s, usesNext) ← takeFlag known rest.head? arg s
    match usesNext, rest with
    | true, _ :: rest => takeFlags known rest s
    | _, rest => takeFlags known rest s

end DeclCheck.Cli
