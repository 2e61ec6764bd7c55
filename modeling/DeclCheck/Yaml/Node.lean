import DeclCheck.Yaml.Event
import DeclCheck.Yaml.Tag

/-!
# Nodes

The tree of a document. An alias keeps the name it was written with and the node it stands for.
-/
namespace DeclCheck.Yaml

/-- Where a node starts: how many lines are above it, and its column in characters, from one. -/
structure Place where
  above : Nat := 0
  column : Nat := 1
  deriving DecidableEq, Repr, Inhabited

/-- The place in a line, which is counted from one. -/
def Place.on (line column : Nat) : Place := ⟨line - 1, column⟩

def Place.line (p : Place) : Nat := p.above + 1

/-- A node of a document. The tag is in its short form. -/
inductive Node where
  | scalar (place : Place) (tag : Text) (style : ScalarStyle) (value : Text)
  | sequence (place : Place) (tag : Text) (items : List Node)
  | mapping (place : Place) (tag : Text) (entries : List (Node × Node))
  | reference (place : Place) (name : Text) (target : Node)
  deriving Repr, Inhabited

namespace Node

/-- Where the node starts: at its anchor or tag if it has one. -/
def place : Node → Place
  | scalar p _ _ _ | sequence p _ _ | mapping p _ _ | reference p _ _ => p

/-- The text of a scalar, the name of an alias; collections have none. -/
def value : Node → Text
  | scalar _ _ _ v => v
  | reference _ n _ => n
  | _ => []

/-- The tag of a node, for an alias that of what it stands for. -/
def tag : Node → Text
  | scalar _ t _ _ | sequence _ t _ | mapping _ t _ => t
  | reference _ _ n => n.tag

def isScalar : Node → Bool
  | scalar .. => true
  | _ => false

def isQuoted : Node → Bool
  | scalar _ _ style _ => style == .singleQuoted || style == .doubleQuoted
  | _ => false

def isNull : Node → Bool
  | scalar _ t _ _ => t == Tag.null
  | _ => false

/-- What an alias stands for, through any number of aliases; other nodes stand for themselves. -/
def resolved : Node → Node
  | reference _ _ n => n.resolved
  | n => n

def placeOf (m : Mark) : Place := .on (m.line + 1) (m.column + 1)

/-- The tag of a node: the one written, or `fallback` if none was. -/
def tagOr (written fallback : Text) : Text :=
  if written.isEmpty || written == Text.ofString "!" then fallback else Tag.short written

def ofScalar (m : Mark) (value : Text) (style : ScalarStyle) (tag : Text) : Node :=
  let fallback :=
    if style != .plain then Tag.str
    else if value == Text.ofString "<<" then Tag.merge
    else Tag.implicit value
  scalar (placeOf m) (tagOr tag fallback) style value

/-! ## Building the tree -/

/-- What a name of an anchor stands for: a node, or a collection that is still open, by its
number. -/
inductive Anchored where
  | node (n : Node)
  | opened (number : Nat)

/-- A collection that is still open, with its parts, the last one first. -/
structure Frame where
  isMapping : Bool
  place : Place
  tag : Text
  number : Nat
  parts : List Node := []

def pairUp : List Node → List (Node × Node)
  | k :: v :: rest => (k, v) :: pairUp rest
  | _ => []

def Frame.close (f : Frame) : Node :=
  if f.isMapping then .mapping f.place f.tag (pairUp f.parts.reverse)
  else .sequence f.place f.tag f.parts.reverse

structure Building where
  frames : List Frame := []
  anchors : List (Text × Anchored) := []
  /-- How many collections were opened. -/
  opened : Nat := 0
  root : Option Node := none

/-- Gives a name to a node or to an open collection. An empty name is none. -/
def Building.name (b : Building) (anchor : Text) (a : Anchored) : Building :=
  if anchor.isEmpty then b
  else { b with anchors := (anchor, a) :: b.anchors.filter (·.1 != anchor) }

def Building.put (b : Building) (n : Node) : Building :=
  match b.frames with
  | [] => { b with root := some n }
  | f :: fs => { b with frames := { f with parts := n :: f.parts } :: fs }

def Building.start (b : Building) (isMapping : Bool) (m : Mark) (anchor tag : Text) : Building :=
  let number := b.opened
  let frame : Frame :=
    { isMapping, number, place := placeOf m,
      tag := tagOr tag (if isMapping then Tag.map else Tag.seq) }
  { b with frames := frame :: b.frames, opened := number + 1 }.name anchor (.opened number)

/-- Closes the innermost collection; its name stands for it from here on. -/
def Building.stop (b : Building) : Building :=
  match b.frames with
  | [] => b
  | f :: fs =>
    let n := f.close
    let settle : Text × Anchored → Text × Anchored
      | (name, .opened k) => if k == f.number then (name, .node n) else (name, .opened k)
      | p => p
    { b with frames := fs, anchors := b.anchors.map settle }.put n

def Building.apply (b : Building) (e : Event) : Except Failure Building :=
  match e.kind with
  | .scalar value style anchor tag =>
    let n := ofScalar e.start value style tag
    .ok ((b.name anchor (.node n)).put n)
  | .reference name =>
    match b.anchors.find? (·.1 == name) with
    | some (_, .node n) => .ok (b.put (.reference (placeOf e.start) name n))
    | some (_, .opened _) => .error (.openAnchor name)
    | none => .error (.unknownAnchor name)
  | .sequenceStart anchor tag => .ok (b.start false e.start anchor tag)
  | .mappingStart anchor tag => .ok (b.start true e.start anchor tag)
  | .sequenceEnd | .mappingEnd => .ok b.stop
  | _ => .ok b

def build : Nat → Building → EventStream → Except Failure (Option Node)
  | 0, b, _ => .ok b.root
  | fuel + 1, b, s => do
    let (e, s) ← s.next
    match e.kind with
    | .documentEnd => return b.root
    | .streamEnd => return none
    | _ =>
      let b ← b.apply e
      build fuel b s

/-- The root of the first document of a text, if there is a document. Each character starts at most
two tokens and each token at most two events, and indentation ends no more blocks than it opened,
so the bound on the events is never met. -/
def ofBytes (t : Text) : Except Failure (Option Node) :=
  build (8 * t.length + 64) {} (EventStream.ofBytes t)

end Node

end DeclCheck.Yaml
