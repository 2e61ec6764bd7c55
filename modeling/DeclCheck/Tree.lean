import DeclCheck.Tree.Decl

/-!
# Declaration trees

A tree is built bottom up: a class is made of members that are there already, a function of its
formals. A declaration gets a parent once. A step that fails may have changed the tree: the
declaration itself and the children before the offending one stay.
-/
namespace DeclCheck

structure TopLevel where
  span : Span := {}
  decls : List DeclId := []
  deriving Repr, Inhabited

/-- The nodes of a program, each list in the order of numbers, and its names. -/
structure Tree where
  names : NameTable := .empty
  units : Array TopLevel := #[]
  decls : Array Decl := #[]
  types : Array TypeExpr := #[]
  blocks : Array Block := #[]
  deriving Repr, Inhabited

/-- Why a building step fails. -/
inductive BuildError where
  | variableWithoutType
  | functionWithoutResult
  | arrayWithoutElement
  | formalNotVariable (formal : DeclId)
  | memberNotPrototype (member : DeclId)
  | unknownChild (parent child : DeclId)
  | alreadyOwned (child owner : DeclId)
  | bodyOfNonFunction (decl : DeclId)
  | bodyAttached (decl : DeclId) (state : FunctionState)
  | emptyBody (decl : DeclId)
  | overflow
  deriving DecidableEq, Repr

def BuildError.message : BuildError → Text
  | variableWithoutType => "variable declaration without type"
  | functionWithoutResult => "function declaration without result type"
  | arrayWithoutElement => "array type without element type"
  | formalNotVariable f => "formal " ++ Text.ofNat f ++ " is not a variable declaration"
  | memberNotPrototype m => "interface member " ++ Text.ofNat m ++ " is not a function prototype"
  | unknownChild p c => "decl " ++ Text.ofNat p ++ ": unknown child " ++ Text.ofNat c
  | alreadyOwned c o => "decl " ++ Text.ofNat c ++ " already owned by " ++ Text.ofNat o
  | bodyOfNonFunction d => "attach body: decl " ++ Text.ofNat d ++ " is not a function"
  | bodyAttached d s => "attach body: function " ++ Text.ofNat d ++ " is already " ++ s.label
  | emptyBody d => "attach body: function " ++ Text.ofNat d ++ " got an empty body"
  | overflow => "arena overflow: out of range"

/-- How many nodes of a kind there can be; without a limit, any number. -/
class Capacity where
  limit : Option Nat

instance (priority := low) Capacity.unlimited : Capacity := ⟨none⟩

/-- The numbers of nodes are words. -/
@[reducible] def Capacity.words : Capacity := ⟨some (UInt32.size - 1)⟩

/-- The element with a number, counted from one. -/
def numbered? {α : Type} (xs : Array α) (n : Nat) : Option α :=
  match n with
  | 0 => none
  | i + 1 => xs[i]?

namespace Tree

def fits [Capacity] (t : Tree) : Bool :=
  match Capacity.limit with
  | none => true
  | some n => t.units.size ≤ n && t.decls.size ≤ n && t.types.size ≤ n && t.blocks.size ≤ n

def decl? (t : Tree) (id : DeclId) : Option Decl := numbered? t.decls id

def type? (t : Tree) (id : TypeExprId) : Option TypeExpr := numbered? t.types id

def block? (t : Tree) (id : BlockId) : Option Block := numbered? t.blocks id

def unit? (t : Tree) (id : UnitId) : Option TopLevel := numbered? t.units id

def class? (t : Tree) (id : DeclId) : Option ClassDecl := (t.decl? id).bind Decl.class?

def function? (t : Tree) (id : DeclId) : Option FunctionDecl := (t.decl? id).bind Decl.function?

def interface? (t : Tree) (id : DeclId) : Option (List DeclId) :=
  (t.decl? id).bind Decl.interface?

def variableType? (t : Tree) (id : DeclId) : Option TypeExprId :=
  (t.decl? id).bind Decl.variableType?

def namedType? (t : Tree) (id : TypeExprId) : Option Ident :=
  match t.type? id with
  | some (.named ident) => some ident
  | _ => none

def children (t : Tree) (id : DeclId) : List DeclId :=
  match t.decl? id with
  | some d => d.children
  | none => []

def nameOf (t : Tree) (id : DeclId) : Text :=
  match t.decl? id with
  | some d => t.names.get d.name.name
  | none => []

def labelWithin (t : Tree) : Nat → TypeExprId → Text
  | 0, _ => "<none>"
  | fuel + 1, id =>
    match t.type? id with
    | none => "<none>"
    | some (.primitive p _) => p.label
    | some (.named ident) => t.names.get ident.name
    | some (.array elem _) => t.labelWithin fuel elem ++ "[]"

/-- A written type as it is spelled. Types do not contain themselves, so there are fewer arrays in
a row than types. -/
def typeLabel (t : Tree) (id : TypeExprId) : Text := t.labelWithin (t.types.size + 1) id

/-- How many declarations of the kind of a declaration there are up to it. -/
def ordinal (t : Tree) (id : DeclId) : Nat :=
  match t.decl? id with
  | some d => (t.decls.toList.take id).countP (·.kind == d.kind)
  | none => 0

def countKind (t : Tree) (k : DeclKind) : Nat := t.decls.toList.countP (·.kind == k)

/-! ## Building -/

/-- The name with a place; spellings with one normal form are one name. -/
def ident [Text.NormalForm] (t : Tree) (text : Text) (span : Span) : Tree × Ident :=
  let (names, name) := t.names.internIdent text
  ({ t with names }, { name, span })

def addUnit (t : Tree) (span : Span) : Tree × UnitId :=
  ({ t with units := t.units.push { span } }, t.units.size + 1)

/-- Adds a declaration at the end of a unit, if there is such a unit. -/
def pushTop? (t : Tree) (unit : UnitId) (decl : DeclId) : Option Tree :=
  match unit with
  | 0 => none
  | i + 1 =>
    if i < t.units.size then
      some { t with units := t.units.modify i fun u => { u with decls := u.decls ++ [decl] } }
    else none

def addType (t : Tree) (e : TypeExpr) : Tree × TypeExprId :=
  ({ t with types := t.types.push e }, t.types.size + 1)

def addPrimitive (t : Tree) (prim : Primitive) (span : Span) : Tree × TypeExprId :=
  t.addType (.primitive prim span)

def addNamed (t : Tree) (ident : Ident) : Tree × TypeExprId := t.addType (.named ident)

def addArray (t : Tree) (elem : TypeExprId) (span : Span) :
    Tree × Except BuildError TypeExprId :=
  if elem = 0 then (t, .error .arrayWithoutElement)
  else
    let (t, id) := t.addType (.array elem span)
    (t, .ok id)

def addBlock (t : Tree) (span : Span) (children : List BlockId) : Tree × BlockId :=
  ({ t with blocks := t.blocks.push { span, children } }, t.blocks.size + 1)

def modifyDecl (t : Tree) (id : DeclId) (f : Decl → Decl) : Tree :=
  { t with decls := t.decls.modify (id - 1) f }

/-- Gives children their parent, up to one that cannot have it. -/
def adopt (t : Tree) (parent : DeclId) : List DeclId → Tree × Except BuildError Unit
  | [] => (t, .ok ())
  | c :: cs =>
    match t.decl? c with
    | none => (t, .error (.unknownChild parent c))
    | some d =>
      if d.parent ≠ 0 then (t, .error (.alreadyOwned c d.parent))
      else (t.modifyDecl c fun d => { d with parent }).adopt parent cs

def addDecl (t : Tree) (name : Ident) (span : Span) (subject : Subject) :
    Tree × Except BuildError DeclId :=
  let id := t.decls.size + 1
  let t := { t with decls := t.decls.push { name, span, subject } }
  match t.adopt id subject.children with
  | (t, .ok ()) => (t, .ok id)
  | (t, .error e) => (t, .error e)

def addVariable (t : Tree) (name : Ident) (type : TypeExprId) (span : Span) :
    Tree × Except BuildError DeclId :=
  if type = 0 then (t, .error .variableWithoutType)
  else t.addDecl name span (.variable type)

def isVariable (t : Tree) (id : DeclId) : Bool := (t.variableType? id).isSome

def isPrototype (t : Tree) (id : DeclId) : Bool :=
  match t.function? id with
  | some f => f.isPrototype
  | none => false

def addFunctionIn (t : Tree) (state : FunctionState) (isPrototype : Bool) (name : Ident)
    (result : TypeExprId) (formals : List DeclId) (span : Span) :
    Tree × Except BuildError DeclId :=
  if result = 0 then (t, .error .functionWithoutResult)
  else
    match formals.find? (!t.isVariable ·) with
    | some f => (t, .error (.formalNotVariable f))
    | none => t.addDecl name span (.function { result, formals, state, isPrototype })

/-- Adds a function whose body comes later. -/
def addFunction (t : Tree) (name : Ident) (result : TypeExprId) (formals : List DeclId)
    (span : Span) : Tree × Except BuildError DeclId :=
  t.addFunctionIn .signatureOnly false name result formals span

/-- Adds a function that has no body and gets none. -/
def addPrototype (t : Tree) (name : Ident) (result : TypeExprId) (formals : List DeclId)
    (span : Span) : Tree × Except BuildError DeclId :=
  t.addFunctionIn .complete true name result formals span

def addClass (t : Tree) (name : Ident) (decl : ClassDecl) (span : Span) :
    Tree × Except BuildError DeclId :=
  t.addDecl name span (.class decl)

/-- Adds an interface. Its members are prototypes. -/
def addInterface (t : Tree) (name : Ident) (members : List DeclId) (span : Span) :
    Tree × Except BuildError DeclId :=
  match members.find? (!t.isPrototype ·) with
  | some m => (t, .error (.memberNotPrototype m))
  | none => t.addDecl name span (.interface members)

def attachBody (t : Tree) (id : DeclId) (body : BlockId) : Tree × Except BuildError Unit :=
  match t.function? id with
  | none => (t, .error (.bodyOfNonFunction id))
  | some f =>
    if f.state ≠ .signatureOnly then (t, .error (.bodyAttached id f.state))
    else if body = 0 then (t, .error (.emptyBody id))
    else
      (t.modifyDecl id fun d =>
        { d with subject := .function { f with body, state := .complete } }, .ok ())

end Tree

end DeclCheck
