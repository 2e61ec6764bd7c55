import DeclCheck.Source.Span
import DeclCheck.Source.NameTable

/-!
# Declarations

The nodes of a declaration tree. Nodes refer to each other by number; numbers start at one and
zero stands for no node. A number may also be one that no node has.
-/
namespace DeclCheck

abbrev DeclId := Nat

abbrev TypeExprId := Nat

abbrev BlockId := Nat

/-- The number of a list of top-level declarations. -/
abbrev UnitId := Nat

structure Ident where
  name : NameId := 0
  span : Span := {}
  deriving DecidableEq, Repr, Inhabited

/-- The built-in types. `error` stands for a type that could not be read. -/
inductive Primitive where
  | int
  | double
  | bool
  | void
  | null
  | string
  | error
  /-- A number that no built-in type has. -/
  | unknown (number : UInt8)
  deriving DecidableEq, Repr, Inhabited

namespace Primitive

def ofNumber (n : UInt8) : Primitive :=
  match n.toNat with
  | 0 => int
  | 1 => double
  | 2 => bool
  | 3 => void
  | 4 => null
  | 5 => string
  | 6 => error
  | _ => unknown n

def number : Primitive → UInt8
  | int => 0
  | double => 1
  | bool => 2
  | void => 3
  | null => 4
  | string => 5
  | error => 6
  | unknown n => n

def label : Primitive → Text
  | int => "int"
  | double => "double"
  | bool => "bool"
  | void => "void"
  | null => "null"
  | string => "string"
  | error => "error"
  | unknown _ => "prim?"

def keywords : List Primitive := [int, double, bool, void, null, string]

def ofKeyword? (t : Text) : Option Primitive := keywords.find? (·.label == t)

end Primitive

/-- A type as it is written. -/
inductive TypeExpr where
  | primitive (prim : Primitive) (span : Span)
  | named (ident : Ident)
  | array (elem : TypeExprId) (span : Span)
  deriving DecidableEq, Repr, Inhabited

def TypeExpr.span : TypeExpr → Span
  | primitive _ s | array _ s => s
  | named ident => ident.span

/-- A block of statements. Only that it is there matters to declarations. -/
structure Block where
  span : Span := {}
  children : List BlockId := []
  deriving DecidableEq, Repr, Inhabited

inductive DeclKind where
  | variable : DeclKind
  | class : DeclKind
  | interface : DeclKind
  | function : DeclKind
  deriving DecidableEq, Repr, Inhabited

namespace DeclKind

def label : DeclKind → Text
  | .variable => "variable"
  | .class => "class"
  | interface => "interface"
  | function => "function"

/-- The words for a number of a kind; numbers above three are no kind. -/
def labelOf (n : UInt8) : Text :=
  match n.toNat with
  | 0 => label .variable
  | 1 => label .class
  | 2 => label interface
  | 3 => label function
  | k => "DeclKind(" ++ Text.ofNat k ++ ")"

/-- Does a declaration of the kind give its name to a type? -/
def namesType : DeclKind → Bool
  | .class => true
  | interface => true
  | _ => false

end DeclKind

/-- A function gets its body after its signature. -/
inductive FunctionState where
  | signatureOnly
  | complete
  deriving DecidableEq, Repr, Inhabited

namespace FunctionState

def label : FunctionState → Text
  | signatureOnly => "signature-only"
  | complete => "complete"

/-- The words for a number of a state; numbers above one are no state. -/
def labelOf (n : UInt8) : Text :=
  match n.toNat with
  | 0 => label signatureOnly
  | 1 => label complete
  | k => "FnState(" ++ Text.ofNat k ++ ")"

end FunctionState

/-- A class: its base, or zero, its interfaces and its members. -/
structure ClassDecl where
  base : TypeExprId := 0
  implements : List TypeExprId := []
  members : List DeclId := []
  deriving DecidableEq, Repr, Inhabited

/-- A function. A prototype is complete without a body. -/
structure FunctionDecl where
  result : TypeExprId
  formals : List DeclId := []
  body : BlockId := 0
  state : FunctionState := .signatureOnly
  isPrototype : Bool := false
  deriving DecidableEq, Repr, Inhabited

/-- What a declaration declares. -/
inductive Subject where
  | variable (type : TypeExprId)
  | class (decl : ClassDecl)
  | interface (members : List DeclId)
  | function (decl : FunctionDecl)
  deriving DecidableEq, Repr, Inhabited

namespace Subject

def kind : Subject → DeclKind
  | .variable _ => .variable
  | .class _ => .class
  | interface _ => .interface
  | function _ => .function

/-- The declarations inside: members, or formals. -/
def children : Subject → List DeclId
  | .variable _ => []
  | .class c => c.members
  | interface members => members
  | function f => f.formals

end Subject

/-- A declaration. Its parent is the declaration it stands in, or zero. -/
structure Decl where
  name : Ident
  span : Span
  parent : DeclId := 0
  subject : Subject
  deriving DecidableEq, Repr, Inhabited

namespace Decl

def kind (d : Decl) : DeclKind := d.subject.kind

def children (d : Decl) : List DeclId := d.subject.children

def class? (d : Decl) : Option ClassDecl :=
  match d.subject with
  | .class c => some c
  | _ => none

def function? (d : Decl) : Option FunctionDecl :=
  match d.subject with
  | .function f => some f
  | _ => none

def interface? (d : Decl) : Option (List DeclId) :=
  match d.subject with
  | .interface members => some members
  | _ => none

def variableType? (d : Decl) : Option TypeExprId :=
  match d.subject with
  | .variable t => some t
  | _ => none

end Decl

end DeclCheck
