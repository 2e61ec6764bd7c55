import DeclCheck.Tree
import DeclCheck.Types

/-!
# From written types to types

A written type and the signature of a function are looked at once; what was found then is
remembered. A type that is not there is the error type.
-/
namespace DeclCheck

/-- The types so far, and what is remembered of written types and of functions. -/
structure Lowering where
  store : TypeStore := .initial
  lowered : List (TypeExprId × TypeId) := []
  signatures : List (DeclId × Signature) := []
  deriving Repr, Inhabited

namespace Lowering

def primitiveId : Primitive → TypeId
  | .int => TypeStore.intId
  | .double => TypeStore.doubleId
  | .bool => TypeStore.boolId
  | .void => TypeStore.voidId
  | .null => TypeStore.nullId
  | .string => TypeStore.stringId
  | .error | .unknown _ => TypeStore.errorId

def remember (l : Lowering) (id : TypeExprId) (type : TypeId) : Lowering :=
  { l with lowered := (id, type) :: l.lowered }

/-- The type of a written type, looking through at most `fuel` arrays. -/
def typeWithin (tree : Tree) : Nat → Lowering → TypeExprId → Lowering × TypeId
  | 0, l, _ => (l, TypeStore.errorId)
  | fuel + 1, l, id =>
    match l.lowered.lookup id with
    | some type => (l, type)
    | none =>
      match tree.type? id with
      | none => (l.remember id TypeStore.errorId, TypeStore.errorId)
      | some (.primitive p _) => (l.remember id (primitiveId p), primitiveId p)
      | some (.named ident) =>
        let (store, type) := l.store.named ident.name
        ({ l with store }.remember id type, type)
      | some (.array elem _) =>
        let (l, e) := typeWithin tree fuel l elem
        let (store, type) := l.store.intern { kind := .array, elem := e }
        ({ l with store }.remember id type, type)

/-- The type of a written type. Written types do not contain themselves. -/
def type (tree : Tree) (l : Lowering) (id : TypeExprId) : Lowering × TypeId :=
  typeWithin tree (tree.types.size + 1) l id

def formalTypes (tree : Tree) : Lowering → List DeclId → Lowering × List TypeId
  | l, [] => (l, [])
  | l, f :: fs =>
    let (l, t) := l.type tree ((tree.variableType? f).getD 0)
    let (l, ts) := formalTypes tree l fs
    (l, t :: ts)

def signature (tree : Tree) (l : Lowering) (id : DeclId) : Lowering × Option Signature :=
  match l.signatures.lookup id with
  | some sig => (l, some sig)
  | none =>
    match tree.decl? id with
    | none => (l, none)
    | some d =>
      match d.function? with
      | none => (l, none)
      | some f =>
        let (l, result) := l.type tree f.result
        let (l, params) := l.formalTypes tree f.formals
        let sig := { name := d.name.name, result, params }
        ({ l with signatures := (id, sig) :: l.signatures }, some sig)

def sameSignature (tree : Tree) (l : Lowering) (f g : DeclId) : Lowering × Bool :=
  let (l, sf) := l.signature tree f
  let (l, sg) := l.signature tree g
  match sf, sg with
  | some sf, some sg => (l, l.store.sameSignature sf sg)
  | _, _ => (l, false)

end Lowering

end DeclCheck
