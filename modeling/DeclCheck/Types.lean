import DeclCheck.Source.NameTable

/-!
# Types

The type store gives each type a number, so that equal types have equal numbers. Named types are
told apart by name only. The error type is the same as every type, which keeps one mistake from
being reported again wherever it is used.
-/
namespace DeclCheck

/-- The number of a type. Zero is no type. -/
abbrev TypeId := Nat

inductive TypeKind where
  | invalid
  | int
  | double
  | bool
  | void
  | null
  | string
  | error
  | named
  | array
  /-- A number that no kind has. -/
  | unknown (number : UInt8)
  deriving DecidableEq, Repr, Inhabited

namespace TypeKind

def ofNumber (n : UInt8) : TypeKind :=
  match n.toNat with
  | 0 => invalid
  | 1 => int
  | 2 => double
  | 3 => bool
  | 4 => void
  | 5 => null
  | 6 => string
  | 7 => error
  | 8 => named
  | 9 => array
  | _ => unknown n

def number : TypeKind → UInt8
  | invalid => 0
  | int => 1
  | double => 2
  | bool => 3
  | void => 4
  | null => 5
  | string => 6
  | error => 7
  | named => 8
  | array => 9
  | unknown n => n

def label : TypeKind → Text
  | invalid => "invalid"
  | int => "int"
  | double => "double"
  | bool => "bool"
  | void => "void"
  | null => "null"
  | string => "string"
  | error => "error"
  | named => "named"
  | array => "array"
  | unknown n => "Kind(" ++ Text.ofNat n.toNat ++ ")"

def isPrimitive : TypeKind → Bool
  | int | double | bool | void | null | string | error => true
  | _ => false

end TypeKind

/-- A type: the element matters to arrays and the name to named types. -/
structure Ty where
  kind : TypeKind
  elem : TypeId := 0
  name : NameId := 0
  deriving DecidableEq, Repr, Inhabited

def builtinTypes : List Ty :=
  [{ kind := .int }, { kind := .double }, { kind := .bool }, { kind := .void }, { kind := .null },
   { kind := .string }, { kind := .error }]

/-- The types that have a number; the first place is that of no type. -/
structure TypeStore where
  types : Array Ty := ({ kind := .invalid } :: builtinTypes).toArray
  deriving Repr, Inhabited

/-- What is compared of a function: parameters have types but no names. -/
structure Signature where
  name : NameId := 0
  result : TypeId := 0
  params : List TypeId := []
  deriving DecidableEq, Repr, Inhabited

inductive TypeError where
  | arrayOfInvalid
  | invalidNumber
  deriving DecidableEq, Repr

def TypeError.message : TypeError → Text
  | arrayOfInvalid => "types: array of invalid type"
  | invalidNumber => "types: invalid TypeID"

namespace TypeStore

def initial : TypeStore := {}

def intId : TypeId := 1
def doubleId : TypeId := 2
def boolId : TypeId := 3
def voidId : TypeId := 4
def nullId : TypeId := 5
def stringId : TypeId := 6
def errorId : TypeId := 7

def builtinIds : List TypeId := [intId, doubleId, boolId, voidId, nullId, stringId, errorId]

/-- How many places are taken, that of no type included. -/
def size (s : TypeStore) : Nat := s.types.size

/-- The number of a type and the store that knows it. The invalid type has number zero. -/
def intern (s : TypeStore) (t : Ty) : TypeStore × TypeId :=
  if t.kind = .invalid then (s, 0)
  else
    match s.types.findIdx? (· == t) with
    | some i => (s, i)
    | none => (⟨s.types.push t⟩, s.types.size)

def named (s : TypeStore) (name : NameId) : TypeStore × TypeId := s.intern { kind := .named, name }

def array (s : TypeStore) (elem : TypeId) : TypeStore × Except TypeError TypeId :=
  if elem = 0 then (s, .error .arrayOfInvalid)
  else
    let (s, id) := s.intern { kind := .array, elem }
    (s, .ok id)

def get? (s : TypeStore) (id : TypeId) : Option Ty := if id = 0 then none else s.types[id]?

def must (s : TypeStore) (id : TypeId) : Except TypeError Ty :=
  match s.get? id with
  | some t => .ok t
  | none => .error .invalidNumber

def labelWithin (s : TypeStore) (names : NameTable) : Nat → TypeId → Text
  | 0, _ => "<invalid>"
  | fuel + 1, id =>
    match s.get? id with
    | none => "<invalid>"
    | some t =>
      match t.kind with
      | .named => names.get t.name
      | .array => s.labelWithin names fuel t.elem ++ "[]"
      | k => k.label

/-- A type as it is written. Types do not contain themselves, so there are fewer arrays in a row
than types. -/
def label (s : TypeStore) (names : NameTable) (id : TypeId) : Text :=
  s.labelWithin names (s.size + 1) id

def signatureLabel (s : TypeStore) (names : NameTable) (sig : Signature) : Text :=
  s.label names sig.result ++ " " ++ names.get sig.name ++ "(" ++
    Text.join ", " (sig.params.map (s.label names)) ++ ")"

def sameWithin (s : TypeStore) : Nat → TypeId → TypeId → Bool
  | 0, a, b => a == b
  | fuel + 1, a, b =>
    if a == b then true
    else
      match s.get? a, s.get? b with
      | some ta, some tb =>
        if ta.kind == .error || tb.kind == .error then true
        else if ta.kind != tb.kind then false
        else
          match ta.kind with
          | .named => ta.name == tb.name
          | .array => s.sameWithin fuel ta.elem tb.elem
          | _ => false
      | _, _ => false

/-- Are two types the same? The error type is the same as every type. Where elements have smaller numbers than
their arrays, no more arrays are nested than there are types. -/
def same (s : TypeStore) (a b : TypeId) : Bool := s.sameWithin (s.size + 1) a b

def samePairwise (s : TypeStore) : List TypeId → List TypeId → Bool
  | [], [] => true
  | a :: as, b :: bs => s.same a b && s.samePairwise as bs
  | _, _ => false

def sameSignature (s : TypeStore) (f g : Signature) : Bool :=
  f.name == g.name && s.same f.result g.result && s.samePairwise f.params g.params

end TypeStore

end DeclCheck
