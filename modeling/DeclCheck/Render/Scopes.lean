import DeclCheck.Check.Oracle
import DeclCheck.Render.Json
import DeclCheck.Text.Width

/-!
# Scopes on show

The scopes of a checked tree with what their names stand for: as a list, and as text in aligned
columns.
-/
namespace DeclCheck

/-- A binding on show. `source` is the declaration it was inherited from. -/
structure EntryView where
  name : Text
  kind : Text
  type : Text := []
  source : Text := []
  deriving DecidableEq, Repr, Inhabited

structure ScopeView where
  id : ScopeId
  kind : Text
  owner : Text
  parent : ScopeId
  filled : Bool
  entries : List EntryView
  deriving Repr, Inhabited

/-- The names of the declarations around a declaration and its own, outermost first, at most
`fuel` of them. -/
def Tree.pathWithin (t : Tree) : Nat → DeclId → List Text
  | 0, _ => []
  | fuel + 1, id =>
    match t.decl? id with
    | none => []
    | some d => t.pathWithin fuel d.parent ++ [t.nameOf id]

/-- The names of a declaration and of those around it, with dots between. -/
def Tree.qualifiedName (t : Tree) (id : DeclId) : Text :=
  Text.join "." (t.pathWithin (t.decls.size + 1) id)

namespace ScopeView

/-- The type of a declaration on show: of a variable its type, of a function its signature. -/
def typeText (tree : Tree) (l : Lowering) (id : DeclId) (d : Decl) : Lowering × Text :=
  match d.subject with
  | .variable type =>
    let (l, t) := l.type tree type
    (l, l.store.label tree.names t)
  | .function _ =>
    match l.signature tree id with
    | (l, some sig) => (l, l.store.signatureLabel tree.names sig)
    | (l, none) => (l, [])
  | _ => (l, [])

def entry (tree : Tree) (l : Lowering) (s : Scope) (b : Binding) : Lowering × EntryView :=
  let name := tree.names.get b.name
  match tree.decl? b.decl with
  | none => (l, { name, kind := [] })
  | some d =>
    let (l, type) := typeText tree l b.decl d
    let source := if d.parent ≠ 0 && d.parent ≠ s.owner then tree.nameOf d.parent else []
    (l, { name, kind := d.kind.label, type, source })

def entriesOf (tree : Tree) (s : Scope) : Lowering → List Binding → Lowering × List EntryView
  | l, [] => (l, [])
  | l, b :: bs =>
    let (l, e) := entry tree l s b
    let (l, es) := entriesOf tree s l bs
    (l, e :: es)

def listFrom (tree : Tree) : ScopeId → Lowering → List Scope → Lowering × List ScopeView
  | _, l, [] => (l, [])
  | id, l, s :: rest =>
    let (l, entries) := entriesOf tree s l s.entries
    let view : ScopeView :=
      { id, kind := s.kind.label, owner := tree.qualifiedName s.owner, parent := s.parent,
        filled := s.filled, entries }
    let (l, views) := listFrom tree (id + 1) l rest
    (l, view :: views)

/-- All scopes of a table on show. Types that were not looked at before are looked at now. -/
def list (tree : Tree) (l : Lowering) (table : ScopeTable) : Lowering × List ScopeView :=
  listFrom tree 1 l table.scopes.toList

def toJson (v : ScopeView) : Json :=
  let entry (e : EntryView) : Json :=
    .object (Json.field "name" (.text e.name) ++ Json.field "kind" (.text e.kind) ++
      Json.nonEmpty "type" e.type ++ Json.nonEmpty "from" e.source)
  .object (Json.field "id" (.number v.id) ++ Json.field "kind" (.text v.kind) ++
    Json.field "owner" (.text v.owner) ++ Json.nonZero "parent" v.parent ++
    Json.field "filled" (.bool v.filled) ++ Json.field "entries" (.list (v.entries.map entry)))

def entryLine (color : Bool) (nameWidth kindWidth : Nat) (e : EntryView) : Text :=
  let line : Text :=
    "  " ++ Text.fillRight e.name nameWidth ++ "  " ++ Text.fillRight e.kind kindWidth ++
    (if e.type.isEmpty then [] else Text.spaces 2 ++ e.type) ++
    (if e.source.isEmpty then []
      else Text.spaces 2 ++ Style.dim.apply color ("(from " ++ e.source ++ ")"))
  (line.reverse.dropWhile (· == Text.space)).reverse ++ [Text.newline]

/-- The scope as text: a head and a line for each binding. -/
def render (color inherited : Bool) (v : ScopeView) : Text :=
  let entries := if inherited then v.entries else v.entries.filter (·.source.isEmpty)
  let nameWidth := entries.foldl (fun w e => max w (Text.width e.name)) 0
  let kindWidth := entries.foldl (fun w e => max w e.kind.length) 0
  Style.heading.apply color (v.kind ++ " " ++ v.owner) ++ [Text.newline] ++
    entries.flatMap (entryLine color nameWidth kindWidth)

/-- All filled scopes as text, with an empty line between neighbours. -/
def renderAll (color inherited : Bool) (vs : List ScopeView) : Text :=
  Text.join [Text.newline] ((vs.filter (·.filled)).map (render color inherited))

end ScopeView

end DeclCheck
