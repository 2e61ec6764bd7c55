import DeclCheck.Text.Normal

/-!
# Name tables

A name table numbers texts in the order in which they are first seen. The empty text has
number zero from the start.
-/
namespace DeclCheck

/-- The number of a text in a name table. Zero is the empty text. -/
abbrev NameId := Nat

inductive NameError where
  | unknownNumber
  deriving DecidableEq, Repr

def NameError.message : NameError → Text
  | unknownNumber => "invalid string ID"

/-- The texts that have a number, in the order of their numbers. -/
structure NameTable where
  texts : Array Text := #[[]]
  deriving Repr

namespace NameTable

def empty : NameTable := {}

instance : Inhabited NameTable := ⟨empty⟩

def find? (names : NameTable) (t : Text) : Option NameId := names.texts.findIdx? (· == t)

def intern (names : NameTable) (t : Text) : NameTable × NameId :=
  match names.find? t with
  | some i => (names, i)
  | none => (⟨names.texts.push t⟩, names.texts.size)

/-- The number of an identifier: spellings with one normal form share a number. -/
def internIdent [Text.NormalForm] (names : NameTable) (t : Text) : NameTable × NameId :=
  names.intern t.normal

def get? (names : NameTable) (i : NameId) : Option Text := names.texts[i]?

/-- The text with a given number, empty for a number that the table does not know. -/
def get (names : NameTable) (i : NameId) : Text := (names.get? i).getD []

def must (names : NameTable) (i : NameId) : Except NameError Text :=
  match names.get? i with
  | some t => .ok t
  | none => .error .unknownNumber

def has (names : NameTable) (i : NameId) : Bool := i < names.texts.size

/-- How many texts have a number, the empty one included. -/
def size (names : NameTable) : Nat := names.texts.size

end NameTable

end DeclCheck
