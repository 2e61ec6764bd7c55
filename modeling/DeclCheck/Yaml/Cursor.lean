import DeclCheck.Yaml.Failure

/-!
# A place to read on

A cursor is the characters of a document that are still to be read, with the mark of the first
of them. Past the last character it shows the null character, which no document holds.
-/
namespace DeclCheck.Yaml

/-- The character past the end of a document. -/
def endChar : Char := '\x00'

def isBlank (c : Char) : Bool := c == ' ' || c == '\t'

def isBreak (c : Char) : Bool :=
  c == '\n' || c == '\r' || c.toNat == 0x85 || c.toNat == 0x2028 || c.toNat == 0x2029

def isBreakOrEnd (c : Char) : Bool := isBreak c || c == endChar

/-- Is it a blank, or does it end a line or the document? -/
def isBlankOrEnd (c : Char) : Bool := isBlank c || isBreakOrEnd c

/-- Is it a letter or a digit of ASCII, a line below or a hyphen? -/
def isWordChar (c : Char) : Bool := c.isAlphanum || c == '_' || c == '-'

def hexValue? (c : Char) : Option Nat :=
  if c.isDigit then some (c.toNat - 48)
  else if 'a' ≤ c && c ≤ 'f' then some (c.toNat - 87)
  else if 'A' ≤ c && c ≤ 'F' then some (c.toNat - 55)
  else none

/-- The rest of a document. `atLineStart` says that nothing but blanks was read since the last
line break, and `fault` is the fault behind the last character. -/
structure Cursor where
  rest : List Char
  mark : Mark := {}
  atLineStart : Bool := false
  fault : Option Fault := none

namespace Cursor

def ofInput (i : Input) : Cursor := { rest := i.chars, fault := i.fault }

def peek (c : Cursor) : Char := c.rest.headD endChar

def peekAt (c : Cursor) (n : Nat) : Char := (c.rest[n]?).getD endChar

def atEnd (c : Cursor) : Bool := c.rest.isEmpty

/-- Fails if `n` characters cannot be seen because of a fault. -/
def need (c : Cursor) (n : Nat) : Except Failure Unit :=
  match c.fault with
  | some f => if (c.rest.drop (n - 1)).isEmpty then .error (.bytes f) else .ok ()
  | none => .ok ()

/-- Goes on by `n` characters of one line. -/
def skip (c : Cursor) (n : Nat) : Cursor :=
  { c with
    rest := c.rest.drop n
    mark := { c.mark with index := c.mark.index + n, column := c.mark.column + n }
    atLineStart := c.atLineStart && (c.rest.take n).all isBlank }

/-- Goes on by the characters of one line for which `p` holds. -/
def skipWhile (c : Cursor) (p : Char → Bool) : Cursor := c.skip (c.rest.takeWhile p).length

/-- The characters of a line break as they are kept, and the cursor behind it. A carriage return
with its line feed is one break. Without a break nothing is read. -/
def readBreak (c : Cursor) : List Char × Cursor :=
  let next (n : Nat) : Cursor :=
    { c with
      rest := c.rest.drop n
      mark := { index := c.mark.index + n, line := c.mark.line + 1, column := 0 }
      atLineStart := true }
  match c.rest with
  | '\r' :: '\n' :: _ => (['\n'], next 2)
  | ch :: _ =>
    if ch == '\n' || ch == '\r' || ch.toNat == 0x85 then (['\n'], next 1)
    else if isBreak ch then ([ch], next 1)
    else ([], c)
  | [] => ([], c)

def skipBreak (c : Cursor) : Cursor := c.readBreak.2

/-- Does a line start here with three hyphens or three points of their own? -/
def atDocumentIndicator (c : Cursor) : Bool :=
  c.mark.column == 0 &&
    match c.rest with
    | '-' :: '-' :: '-' :: rest => isBlankOrEnd (rest.headD endChar)
    | '.' :: '.' :: '.' :: rest => isBlankOrEnd (rest.headD endChar)
    | _ => false

/-- A problem of the tokens found here, in a construct that began at `context`. -/
def fail {α : Type} (c : Cursor) (p : Problem) (context : Mark) : Except Failure α :=
  match c.fault with
  | some f => if c.atEnd then .error (.bytes f) else .error (.tokens p context c.mark)
  | none => .error (.tokens p context c.mark)

end Cursor

end DeclCheck.Yaml
