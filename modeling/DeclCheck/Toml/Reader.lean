import DeclCheck.Toml.Literal

/-!
# Reading TOML

The state of reading: the characters that are left, the line, the table that is being filled, and
everything that was defined. A table may be named by parts of keys before it is defined; until then
it is implied.
-/
namespace DeclCheck.Toml

inductive Leaf where
  | text (t : Text)
  | integer (n : Int)
  | float
  | boolean (b : Bool)
  | time
  | list
  deriving DecidableEq, Repr, Inhabited

/-- What stands at a key: a table, a list of tables of which the last one is filled, or a value. -/
inductive Node where
  | table
  | tables
  | leaf (value : Leaf)
  deriving DecidableEq, Repr, Inhabited

/-- What is known of a key beside its value. -/
structure KeyFact where
  isList : Bool := false
  line : Int := 0
  deriving DecidableEq, Repr, Inhabited

structure State where
  rest : List Text.Piece := []
  line : Int := 1
  /-- The line of the last key. -/
  keyLine : Int := 0
  /-- The table that is being filled. -/
  context : Key := []
  /-- The last part of the key whose value is read. -/
  current : Text := []
  nodes : List (Key × Node) := []
  facts : List (Key × KeyFact) := []
  implied : List Key := []
  /-- All keys in the order in which they were read. -/
  keys : List Key := []
  deriving Repr, Inhabited

abbrev ReadM := StateT State (Except Failure)

/-- The key that a failure names. -/
def State.lastKey (s : State) : Text :=
  if s.current.isEmpty then keyText s.context
  else if s.context.isEmpty then s.current
  else keyText s.context ++ "." ++ s.current

def failAt {α : Type} (line : Int) (fault : Fault) : ReadM α := do
  throw { line := some line, lastKey := (← get).lastKey, fault }

def fail {α : Type} (fault : Fault) : ReadM α := do failAt (← get).line fault

/-- Fails at the line before, which is the last one if the document has ended. -/
def failBefore {α : Type} (fault : Fault) : ReadM α := do failAt ((← get).line - 1) fault

/-- Fails because of a character, or because of the end of the document. -/
def failOn {α : Type} (found : Option Char) (fault : Fault) : ReadM α :=
  if found.isSome then fail fault else failBefore fault

/-- Fails at the line of the last key. -/
def failKey {α : Type} (fault : Fault) : ReadM α := do failAt (← get).keyLine fault

def orFail {α : Type} : Except Fault α → ReadM α
  | .ok a => return a
  | .error fault => fail fault

/-! ## Characters -/

def isControl (c : Char) : Bool :=
  c != '\t' && c != '\r' && c != '\n' && (c.toNat < 0x20 || c.toNat = 0x7F)

/-- The next character; none at the end. A carriage return has to stand before a line feed. -/
def peek : ReadM (Option Char) := do
  match (← get).rest with
  | [] => return none
  | .stray b :: _ => fail (.stray b)
  | .char c :: rest =>
    if isControl c || (c = '\r' && rest.head? != some (.char '\n')) then fail (.control c)
    return some c

def advance : ReadM Unit :=
  modify fun s =>
    match s.rest with
    | .char '\n' :: rest => { s with rest, line := s.line + 1 }
    | _ :: rest => { s with rest }
    | [] => s

def next : ReadM (Option Char) := do
  let c ← peek
  advance
  return c

def accept (c : Char) : ReadM Bool := do
  if (← peek) = some c then
    advance
    return true
  return false

/-- Takes up to `fuel` characters as long as they have a property. -/
def takeUpTo (p : Char → Bool) : Nat → ReadM (List Char)
  | 0 => return []
  | fuel + 1 => do
    match ← peek with
    | none => return []
    | some c =>
      if p c then
        advance
        return c :: (← takeUpTo p fuel)
      return []

def takeWhile (p : Char → Bool) : ReadM (List Char) := do takeUpTo p (← get).rest.length

def isBlank (c : Char) : Bool := c = ' ' || c = '\t'

def isBreak (c : Char) : Bool := c = '\n' || c = '\r'

def skipBlanks : ReadM Unit := do
  let _ ← takeWhile isBlank

def skipComment : ReadM Unit := do
  let _ ← takeWhile (!isBreak ·)

/-! ## Keys -/

def State.node? (s : State) (key : Key) : Option Node := (s.nodes.find? (·.1 == key)).map (·.2)

def State.clearBelow (s : State) (key : Key) : State :=
  { s with nodes := s.nodes.filter fun n => n.1 == key || !key.isPrefixOf n.1 }

/-- The state with a node at a key and nothing below it. -/
def State.put (s : State) (key : Key) (n : Node) : State :=
  { s with nodes := s.nodes.filter (fun n => !key.isPrefixOf n.1) ++ [(key, n)] }

def State.factOf (s : State) (key : Key) : KeyFact :=
  ((s.facts.find? (·.1 == key)).map (·.2)).getD {}

/-- Notes what is known of a key of the current table, or of that table if the key is empty. -/
def noteFact (key : Text) (isList : Bool) (line : Int) : ReadM Unit :=
  modify fun s =>
    let place := s.context ++ (if key.isEmpty then [] else [key])
    let place := if place.isEmpty then [[]] else place
    { s with facts := (place, { isList, line }) :: s.facts.filter (·.1 != place) }

def imply (key : Key) : ReadM Unit :=
  modify fun s => { s with implied := key :: s.implied.filter (· != key) }

/-- A table is no longer implied. -/
def define (key : Key) : ReadM Unit :=
  modify fun s => { s with implied := s.implied.filter (· != key) }

/-- The starts of a key, shortest first, without the empty one. -/
def starts (key : Key) : List Key := (List.range key.length).map fun i => key.take (i + 1)

/-- Defines a key of the current table. A list is replaced, and a table that was implied is filled
further; any other key is defined once. -/
def setNode (key : Text) (n : Node) : ReadM Unit := do
  let s ← get
  for start in starts s.context do
    if let some (.leaf _) := s.node? start then failKey (.alreadyDefined start)
  let place := s.context ++ [key]
  if (s.node? place).isNone then set (s.put place n)
  else if (s.factOf place).isList then
    set (s.put place n)
    define place
  else if s.implied.contains place then define place
  else failKey (.alreadyDefined place)

/-- Starts to fill a table, or the next table of a list. The tables above it are implied if they are
not there. -/
def openTable (key : Key) (inList : Bool) : ReadM Unit := do
  for start in starts key.dropLast do
    if ((← get).node? start).isNone then
      imply start
      modify (·.put start .table)
    if let some (.leaf _) := (← get).node? start then failKey (.notTable start)
  modify ({ · with context := key.dropLast })
  if inList then
    match (← get).node? key with
    | none => modify (·.put key .tables)
    | some .tables => modify (·.clearBelow key)
    | some _ => failKey (.notList key)
  else setNode (key.getLastD []) .table
  modify ({ · with context := key })

def openImplied (key : Key) : ReadM Unit := do
  imply key
  openTable key false

end DeclCheck.Toml
