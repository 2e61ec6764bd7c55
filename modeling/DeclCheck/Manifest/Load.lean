import DeclCheck.Check.Analysis
import DeclCheck.Manifest.Entry
import DeclCheck.Source.FileSet
import DeclCheck.Text.Letter
import DeclCheck.Text.Utf8

/-!
# From entries to declarations

Every entry becomes one declaration, or is skipped with one error. What is odd about an entry that
is kept is reported, and a type that cannot be read becomes the error type.
-/
namespace DeclCheck.Manifest

open Yaml

/-! ## Identifiers

An identifier is a letter or an underscore, then letters, underscores and digits, of any script. -/

def startsIdentifier : Text.Piece → Bool
  | .char c => c == '_' || Text.isLetter c
  | .stray _ => false

def continuesIdentifier : Text.Piece → Bool
  | .char c => c == '_' || Text.isLetter c || Text.isDigit c
  | .stray _ => false

def isIdentifier (t : Text) : Bool :=
  match Text.pieces t with
  | [] => false
  | p :: ps => startsIdentifier p && ps.all continuesIdentifier

/-! ## Entries -/

/-- A tree being filled from entries, and what was reported on the way. -/
structure LoadState where
  tree : Tree := {}
  diagnostics : Array Diagnostic := #[]
  deriving Repr, Inhabited

abbrev LoadM := ExceptT BuildError (StateM LoadState)

inductive Place where
  | top
  | inClass
  | inInterface
  deriving DecidableEq, Repr

def Place.label : Place → Text
  | top => "program"
  | inClass => "class"
  | inInterface => "interface"

inductive EntryKind where
  | var
  | fn
  | cls
  | iface
  deriving DecidableEq, Repr

namespace EntryKind

def label : EntryKind → Text
  | var => "var"
  | fn => "fn"
  | cls => "class"
  | iface => "interface"

def keys : EntryKind → List Text
  | var => ["var", "type"]
  | fn => ["fn", "returns", "formals", "body"]
  | cls => ["class", "extends", "implements", "members"]
  | iface => ["interface", "members"]

def isAllowed : EntryKind → Place → Bool
  | _, .top => true
  | k, .inClass => k == var || k == fn
  | k, .inInterface => k == fn

end EntryKind

def Entry.kinds (e : Entry) : List (EntryKind × Node) :=
  (e.var.toList.map (EntryKind.var, ·)) ++ (e.fn.toList.map (EntryKind.fn, ·)) ++
    (e.cls.toList.map (EntryKind.cls, ·)) ++ (e.iface.toList.map (EntryKind.iface, ·))

/-- The texts that stand for true where a truth value is asked for. -/
def trueWords : List Text := ["y", "Y", "yes", "Yes", "YES", "on", "On", "ON"]

def isTrue (n : Node) : Bool :=
  match n with
  | .scalar _ tag _ value =>
    match readScalar tag value with
    | .ok (.bool b) => b
    | .ok (.text t) => trueWords.contains t
    | _ => false
  | _ => false

/-! ## Spans -/

/-- How many bytes the first `n` characters of a text take, not counting beyond its first line. -/
def columnBytes : Nat → Text → Nat
  | 0, _ => 0
  | n + 1, t =>
    match t with
    | [] => 0
    | b :: _ =>
      if b = Text.newline then 0
      else
        let k := Text.leadingSize t
        k + columnBytes n (t.drop k)

/-- The span of a node: the text of a scalar, and nothing but the start of other nodes. -/
def spanOf (file : SourceFile) (n : Node) : Span :=
  if n.place.line = 0 then {}
  else
    let line := file.offset ⟨n.place.line.toUInt32, 1⟩
    let start := line +
      (columnBytes (n.place.column - 1) (file.content.drop line.toNat)).toUInt32
    let stop :=
      if n.isScalar then start + n.value.length.toUInt32 + (if n.isQuoted then 2 else 0) else start
    { file := file.id, start, stop := if file.size < stop then file.size else stop }

/-! ## Steps -/

def report (d : Diagnostic) : LoadM Unit :=
  modify fun s => { s with diagnostics := s.diagnostics.push d }

/-- A step of building the tree. It fails if a node gets no number. -/
def build [Capacity] {α : Type} (f : Tree → Tree × α) : LoadM α := do
  let a ← modifyGet fun s =>
    let (tree, a) := f s.tree
    (a, { s with tree })
  if (← get).tree.fits then return a else throw .overflow

def tryBuild [Capacity] {α : Type} (f : Tree → Tree × Except BuildError α) : LoadM α := do
  match ← build f with
  | .ok a => pure a
  | .error e => throw e

def nameText (ident : Ident) : LoadM Text := return (← get).tree.names.get ident.name

/-- The text of a type without its brackets and blanks, and how many pairs of brackets there
were. -/
def stripArrays (t : Text) : Nat → Text × Nat
  | 0 => (t, 0)
  | fuel + 1 =>
    if t.endsWith "[]" then
      let (base, depth) := stripArrays (Text.trim (t.take (t.length - 2))) fuel
      (base, depth + 1)
    else (t, 0)

structure TypeText where
  base : Text
  depth : Nat
  deriving DecidableEq, Repr

/-- Takes the text of a type apart. Brackets take two bytes, so there are fewer than bytes. -/
def TypeText.ofText (t : Text) : TypeText :=
  let t := Text.trim t
  let (base, depth) := stripArrays t t.length
  ⟨base, depth⟩

def wrapArrays [Capacity] (span : Span) : Nat → TypeExprId → LoadM TypeExprId
  | 0, id => pure id
  | n + 1, id => do
    let id ← tryBuild (·.addArray id span)
    wrapArrays span n id

/-- The type that a node spells, for what `what` says. A type that is not there or cannot be read
is reported and becomes the error type. -/
def typeOf [Text.NormalForm] [Capacity] (file : SourceFile) (node : Option Node) (what : Text)
    (owner : Span) : LoadM TypeExprId := do
  match node with
  | some (.scalar p tag style value) =>
    if (Text.trim value).isEmpty then
      report (.error .badType owner (what ++ " has no type"))
      build (·.addPrimitive .error owner)
    else
      let span := spanOf file (.scalar p tag style value)
      let text := TypeText.ofText value
      let size := text.base.length.toUInt32
      let base := if span.start + size ≤ span.stop then { span with stop := span.start + size }
        else span
      match Primitive.ofKeyword? text.base with
      | some prim =>
        let id ← build (·.addPrimitive prim base)
        wrapArrays span text.depth id
      | none =>
        if isIdentifier text.base then
          let ident ← build (·.ident text.base base)
          let id ← build (·.addNamed ident)
          wrapArrays span text.depth id
        else
          report (.error .badType span
            ("malformed type " ++ value.quote ++ " for " ++ what))
          build (·.addPrimitive .error span)
  | _ =>
    report (.error .badType owner (what ++ " has no type"))
    build (·.addPrimitive .error owner)

/-- The named type that a node spells in a clause; zero if it is no name. -/
def namedType [Text.NormalForm] [Capacity] (file : SourceFile) (clause : Text) (node : Node) :
    LoadM TypeExprId := do
  let text := Text.trim node.value
  if node.isScalar && isIdentifier text then
    let ident ← build (·.ident text (spanOf file node))
    build (·.addNamed ident)
  else
    report (.error .badType (spanOf file node)
      (clause ++ " expects a name, found " ++ node.value.quote))
    return 0

/-- The base that a class names; zero if there is none. -/
def baseType [Text.NormalForm] [Capacity] (file : SourceFile) : Option Node → LoadM TypeExprId
  | none => pure 0
  | some n => namedType file "extends" n

def nameList (file : SourceFile) (node : Node) : LoadM (List Node) := do
  match node with
  | .sequence _ _ items => return items
  | .scalar .. => return if node.isNull then [] else [node]
  | _ =>
    report (.error .badType (spanOf file node) "expected a name or a list of names")
    return []

def implemented [Text.NormalForm] [Capacity] (file : SourceFile) (node : Option Node) :
    LoadM (List TypeExprId) := do
  match node with
  | none => return []
  | some node =>
    let ids ← (← nameList file node).mapM (namedType file "implements")
    return ids.filter (· != 0)

/-- The formals of a function. One without a name is skipped. -/
def loadFormals [Text.NormalForm] [Capacity] (file : SourceFile) (fn : Ident) :
    Nat → List FormalEntry → LoadM (List DeclId)
  | _, [] => return []
  | number, f :: rest => do
    let at' := spanOf file f.node
    let text := match f.name with
      | some n => Text.trim n.value
      | none => []
    match f.name with
    | some name =>
      if text.isEmpty then
        report (.error .missingName at'
          ("formal " ++ Text.ofNat number ++ " of '" ++ (← nameText fn) ++ "' has no name"))
        loadFormals file fn (number + 1) rest
      else
        let ident ← build (·.ident text (spanOf file name))
        let type ← typeOf file f.type ("formal '" ++ name.value ++ "'") ident.span
        let id ← tryBuild (·.addVariable ident type (at'.cover ident.span))
        let ids ← loadFormals file fn (number + 1) rest
        return id :: ids
    | none =>
      report (.error .missingName at'
        ("formal " ++ Text.ofNat number ++ " of '" ++ (← nameText fn) ++ "' has no name"))
      loadFormals file fn (number + 1) rest

/-- The result type of a function; nothing if none is written. -/
def resultType [Text.NormalForm] [Capacity] (file : SourceFile) (name : Ident) :
    Option Node → LoadM TypeExprId
  | none => build (·.addPrimitive .void name.span)
  | some n => do typeOf file (some n) ("result of '" ++ (← nameText name) ++ "'") name.span

/-- Adds a function with its signature. Only a function outside of interfaces gets a body. -/
def addSignature [Capacity] (file : SourceFile) (body : Option Node) (name : Ident)
    (result : TypeExprId) (formals : List DeclId) (whole : Span) (place : Place) :
    LoadM DeclId := do
  match body with
  | none => tryBuild (·.addPrototype name result formals whole)
  | some body =>
    if !isTrue body then tryBuild (·.addPrototype name result formals whole)
    else if place = .inInterface then
      report (.error .prototypeBody (spanOf file body)
        ("interface method '" ++ (← nameText name) ++ "' cannot have a body"))
      tryBuild (·.addPrototype name result formals whole)
    else
      let id ← tryBuild (·.addFunction name result formals whole)
      let block ← build (·.addBlock (spanOf file body) [])
      tryBuild (·.attachBody id block)
      return id

def loadFunction [Text.NormalForm] [Capacity] (file : SourceFile) (e : Entry) (name : Ident)
    (whole : Span) (place : Place) : LoadM DeclId := do
  let formals ← loadFormals file name 1 e.formals
  let result ← resultType file name e.returns
  addSignature file e.body name result formals whole place

def checkKeys (file : SourceFile) (kind : EntryKind) : List Node → LoadM Unit
  | [] => return
  | k :: ks => do
    if !kind.keys.contains k.value then
      report (.warning .manifestDecode (spanOf file k)
        ("key " ++ k.value.quote ++ " does not apply to a " ++ kind.label ++ " declaration"))
    checkKeys file kind ks

def checkEntryKeys (file : SourceFile) (e : Entry) : LoadM Unit :=
  match e.kinds with
  | [(kind, _)] => checkKeys file kind e.keys
  | _ => pure ()

/-- The name of an entry, or why it has none: where and what. -/
def entryName (file : SourceFile) (e : Entry) (kind : EntryKind) (name : Node) :
    Except Diagnostic Text :=
  let text := Text.trim name.value
  if !name.isScalar || text.isEmpty then
    .error (.error .missingName (spanOf file e.node) (kind.label ++ " declaration has no name"))
  else if !isIdentifier text then
    .error (.error .missingName (spanOf file name)
      (text.quote ++ " is not a valid " ++ kind.label ++ " name"))
  else .ok text

def classify (file : SourceFile) (e : Entry) (place : Place) :
    Except Diagnostic (EntryKind × Node) :=
  match e.kinds with
  | [] =>
    .error (.error .unknownDeclKind (spanOf file e.node)
      "entry declares none of var, fn, class or interface")
  | [(kind, name)] =>
    if kind.isAllowed place then .ok (kind, name)
    else .error (.error .memberNotAllowed (spanOf file e.node)
      (kind.label ++ " declaration not allowed in " ++ place.label))
  | (k, _) :: (l, _) :: _ =>
    .error (.error .unknownDeclKind (spanOf file e.node)
      ("entry mixes " ++ k.label ++ " and " ++ l.label))

mutual

def loadEntry [Text.NormalForm] [Capacity] (file : SourceFile) (place : Place) :
    Entry → LoadM (Option DeclId)
  | ⟨node, keys, var, fn, cls, iface, type, returns, body, base, implements, formals, members⟩ => do
    let e : Entry :=
      ⟨node, keys, var, fn, cls, iface, type, returns, body, base, implements, formals, members⟩
    checkEntryKeys file e
    match classify file e place with
    | .error d =>
      report d
      return none
    | .ok (kind, nameNode) =>
      match entryName file e kind nameNode with
      | .error d =>
        report d
        return none
      | .ok text =>
        let name ← build (·.ident text (spanOf file nameNode))
        let whole := (spanOf file e.node).cover name.span
        match kind with
        | .var =>
          let type ← typeOf file e.type ("variable '" ++ nameNode.value ++ "'") name.span
          some <$> tryBuild (·.addVariable name type whole)
        | .fn => some <$> loadFunction file e name whole place
        | .cls =>
          let members ← loadEntries file .inClass members
          let base ← baseType file e.base
          let implements ← implemented file e.implements
          some <$> tryBuild (·.addClass name { base, implements, members } whole)
        | .iface =>
          let members ← loadEntries file .inInterface members
          some <$> tryBuild (·.addInterface name members whole)

def loadEntries [Text.NormalForm] [Capacity] (file : SourceFile) (place : Place) :
    List Entry → LoadM (List DeclId)
  | [] => return []
  | e :: rest => do
    let id ← loadEntry file place e
    let ids ← loadEntries file place rest
    return id.toList ++ ids

end

def pushAll [Capacity] (unit : UnitId) (ids : List DeclId) : LoadM Unit :=
  build fun t => (ids.foldl (fun t id => (t.pushTop? unit id).getD t) t, ())

structure Loaded where
  tree : Tree
  unit : UnitId
  globals : Globals
  diagnostics : Array Diagnostic
  deriving Repr, Inhabited

def loadTop [Text.NormalForm] [Capacity] (file : SourceFile) (entries : List Entry) :
    LoadM UnitId := do
  let unit ← build (·.addUnit { file := file.id, start := 0, stop := file.size })
  let ids ← loadEntries file .top entries
  pushAll unit ids
  return unit

def loadAll [Text.NormalForm] [Capacity] (file : SourceFile) (entries : List Entry) :
    Except BuildError Loaded :=
  match (loadTop file entries).run.run {} with
  | (.error e, _) => .error e
  | (.ok unit, s) =>
    let (globals, conflicts, _) := Globals.collect s.tree unit
    .ok { tree := s.tree, unit, globals, diagnostics := s.diagnostics ++ conflicts }

inductive LoadError where
  | decode (path : Text) (error : DecodeError)
  | build (error : BuildError)
  deriving DecidableEq, Repr

def LoadError.message : LoadError → Text
  | decode path e => "loader: decode " ++ path ++ ": " ++ e.message
  | build e => e.message

def load [Text.NormalForm] [Capacity] (file : SourceFile) : Except LoadError Loaded :=
  match decode file.content with
  | .error e => .error (.decode file.path e)
  | .ok entries =>
    match loadAll file entries with
    | .error e => .error (.build e)
    | .ok l => .ok l

end DeclCheck.Manifest
