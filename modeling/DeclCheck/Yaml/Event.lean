import DeclCheck.Yaml.TokenStream

/-!
# Events

The structure of a document as a sequence of events: collections start and end, scalars and
aliases stand between. The next event depends on the tokens and on what is open, which a stack of
expectations records.
-/
namespace DeclCheck.Yaml

/-- What happens in a document. An anchor or a tag is empty if there is none. -/
inductive EventKind where
  | streamStart
  | streamEnd
  | documentStart
  | documentEnd
  | reference (name : Text)
  | scalar (value : Text) (style : ScalarStyle) (anchor tag : Text)
  | sequenceStart (anchor tag : Text)
  | sequenceEnd
  | mappingStart (anchor tag : Text)
  | mappingEnd
  deriving DecidableEq, Repr

structure Event where
  kind : EventKind
  start : Mark
  deriving Repr

inductive Expect where
  | streamStart
  /-- The first document, which needs no indicator. -/
  | firstDocument
  | document
  | documentContent
  | documentEnd
  | blockNode
  | blockSequenceFirst
  | blockSequenceEntry
  | indentlessEntry
  | blockMappingFirst
  | blockMappingKey
  | blockMappingValue
  | flowSequenceFirst
  | flowSequenceEntry
  | pairKey
  | pairValue
  | pairEnd
  | flowMappingFirst
  | flowMappingKey
  | flowMappingValue
  | flowMappingNoValue
  | nothing
  deriving DecidableEq, Repr

structure EventStream where
  tokens : TokenStream
  expect : Expect := .streamStart
  /-- What is expected once the node being read is over, the innermost first. -/
  after : List Expect := []
  /-- Where the open collections started, the innermost first. -/
  opened : List Mark := []
  /-- What the tag handles of the document stand for. -/
  handles : List (Text × Text) := []

namespace EventStream

def ofBytes (t : Text) : EventStream := { tokens := TokenStream.ofInput (Input.ofBytes t) }

abbrev Step := Except Failure (Event × EventStream)

def peek (s : EventStream) : Except Failure (Token × EventStream) := do
  let (t, tokens) ← s.tokens.peek
  return (t, { s with tokens })

def drop (s : EventStream) : EventStream := { s with tokens := s.tokens.drop }

def pop (s : EventStream) : EventStream :=
  { s with expect := s.after.headD .nothing, after := s.after.tail }

def close (s : EventStream) : EventStream := { s.pop with opened := s.opened.tail }

/-- Expects `e` once the node to be read is over. -/
def expecting (s : EventStream) (e : Expect) : EventStream := { s with after := e :: s.after }

def context (s : EventStream) : Mark := s.opened.headD {}

def enter (s : EventStream) (t : Token) : EventStream :=
  { s.drop with opened := t.start :: s.opened }

/-- A scalar that is not written, followed by `e`. -/
def emptyScalar (s : EventStream) (e : Expect) (place : Mark) : Step :=
  .ok (⟨.scalar [] .plain [] [], place⟩, { s with expect := e })

/-! ## Nodes -/

structure Properties where
  anchor : Text := []
  tag : Option (Text × Text × Mark) := none
  start : Mark

/-- Reads the anchor and the tag in front of a node, in either order. -/
def readProperties (s : EventStream) (t : Token) :
    Except Failure (Properties × Token × EventStream) := do
  match t.kind with
  | .anchor name =>
    let (u, s) ← s.drop.peek
    match u.kind with
    | .tag handle suffix =>
      let (v, s) ← s.drop.peek
      return ({ anchor := name, tag := some (handle, suffix, u.start), start := t.start }, v, s)
    | _ => return ({ anchor := name, start := t.start }, u, s)
  | .tag handle suffix =>
    let (u, s) ← s.drop.peek
    match u.kind with
    | .anchor name =>
      let (v, s) ← s.drop.peek
      return ({ anchor := name, tag := some (handle, suffix, t.start), start := t.start }, v, s)
    | _ => return ({ tag := some (handle, suffix, t.start), start := t.start }, u, s)
  | _ => return ({ start := t.start }, t, s)

def expandTag (s : EventStream) (p : Properties) : Except Failure Text :=
  match p.tag with
  | none => .ok []
  | some (handle, suffix, place) =>
    if handle.isEmpty then .ok suffix
    else
      match s.handles.find? (·.1 == handle) with
      | some (_, start) =>
        if (start ++ suffix).isEmpty then .error (.structure .undefinedTagHandle p.start place)
        else .ok (start ++ suffix)
      | none => .error (.structure .undefinedTagHandle p.start place)

/-- Reads the start of a node. Blocks are taken only if `block` holds, and a sequence whose
entries are not indented only if `indentless` holds. -/
def node (s : EventStream) (block indentless : Bool) : Step := do
  let (t, s) ← s.peek
  match t.kind with
  | .reference name => return (⟨.reference name, t.start⟩, s.pop.drop)
  | _ =>
    let (p, t, s) ← s.readProperties t
    let tag ← s.expandTag p
    let start := p.start
    let opening (kind : EventKind) (e : Expect) : Step :=
      .ok (⟨kind, start⟩, { s with expect := e })
    match t.kind with
    | .scalar value style => return (⟨.scalar value style p.anchor tag, start⟩, s.pop.drop)
    | .flowSequenceStart => opening (.sequenceStart p.anchor tag) .flowSequenceFirst
    | .flowMappingStart => opening (.mappingStart p.anchor tag) .flowMappingFirst
    | kind =>
      if indentless && kind == .blockEntry then
        opening (.sequenceStart p.anchor tag) .indentlessEntry
      else if block && kind == .blockSequenceStart then
        opening (.sequenceStart p.anchor tag) .blockSequenceFirst
      else if block && kind == .blockMappingStart then
        opening (.mappingStart p.anchor tag) .blockMappingFirst
      else if !p.anchor.isEmpty || !tag.isEmpty then
        return (⟨.scalar [] .plain p.anchor tag, start⟩, s.pop)
      else .error (.structure .expectedNode start t.start)

/-! ## Documents -/

def defaultHandles : List (Text × Text) := [("!", "!"), ("!!", "tag:yaml.org,2002:")]

/-- Reads the directives in front of a document, at most `fuel` of them. -/
def readDirectives (versioned : Bool) :
    Nat → List (Text × Text) → EventStream → Except Failure EventStream
  | 0, handles, s => .ok { s with handles }
  | fuel + 1, handles, s => do
    let (t, s) ← s.peek
    match t.kind with
    | .versionDirective major minor =>
      if versioned then .error (.structure .duplicateVersion {} t.start)
      else if major ≠ 1 || minor ≠ 1 then .error (.structure .incompatibleVersion {} t.start)
      else readDirectives true fuel handles s.drop
    | .tagDirective handle start =>
      if handles.any (·.1 == handle) then .error (.structure .duplicateTagDirective {} t.start)
      else readDirectives versioned fuel (handles ++ [(handle, start)]) s.drop
    | _ =>
      let defaults := defaultHandles.filter fun d => !handles.any (·.1 == d.1)
      return { s with handles := handles ++ defaults }

/-- Drops the indicators of ended documents, at most `fuel` of them. -/
def dropEnds : Nat → EventStream → Except Failure (Token × EventStream)
  | 0, s => s.peek
  | fuel + 1, s => do
    let (t, s) ← s.peek
    if t.kind == .documentEnd then dropEnds fuel s.drop else return (t, s)

/-- Does a token of this kind start a document with an indicator or end the stream? -/
def startsExplicitly : TokenKind → Bool
  | .versionDirective _ _ | .tagDirective _ _ | .documentStart | .streamEnd => true
  | _ => false

/-- A bound for the number of tokens still to come. -/
def reach (s : EventStream) : Nat := s.tokens.cursor.rest.length + s.tokens.queue.length + 8

def document (s : EventStream) (implicit : Bool) : Step := do
  let (t, s) ← if implicit then s.peek else dropEnds s.reach s
  if implicit && !startsExplicitly t.kind then
    let s ← readDirectives false s.reach [] s
    return (⟨.documentStart, t.start⟩, { s.expecting .documentEnd with expect := .blockNode })
  else if t.kind == .streamEnd then
    return (⟨.streamEnd, t.start⟩, { s.drop with expect := .nothing })
  else
    let start := t.start
    let s ← readDirectives false s.reach [] s
    let (t, s) ← s.peek
    if t.kind != .documentStart then .error (.structure .expectedDocumentStart {} t.start)
    else
      return (⟨.documentStart, start⟩,
        { s.drop.expecting .documentEnd with expect := .documentContent })

def documentContent (s : EventStream) : Step := do
  let (t, s) ← s.peek
  if startsExplicitly t.kind || t.kind == .documentEnd then
    return (⟨.scalar [] .plain [] [], t.start⟩, s.pop)
  else s.node true false

def documentEnd (s : EventStream) : Step := do
  let (t, s) ← s.peek
  let s := if t.kind == .documentEnd then s.drop else s
  return (⟨.documentEnd, t.start⟩, { s with handles := [], expect := .document })

/-! ## Blocks -/

def blockSequenceEntry (s : EventStream) : Step := do
  let (t, s) ← s.peek
  match t.kind with
  | .blockEntry =>
    let place := t.stop
    let (t, s) ← s.drop.peek
    if t.kind == .blockEntry || t.kind == .blockEnd then s.emptyScalar .blockSequenceEntry place
    else (s.expecting .blockSequenceEntry).node true false
  | .blockEnd => return (⟨.sequenceEnd, t.start⟩, s.close.drop)
  | _ => .error (.structure .expectedEntry s.context t.start)

/-- Reads an entry of a sequence that is not indented. -/
def indentlessEntry (s : EventStream) : Step := do
  let (t, s) ← s.peek
  match t.kind with
  | .blockEntry =>
    let place := t.stop
    let (t, s) ← s.drop.peek
    match t.kind with
    | .blockEntry | .key | .value | .blockEnd => s.emptyScalar .indentlessEntry place
    | _ => (s.expecting .indentlessEntry).node true false
  | _ => return (⟨.sequenceEnd, t.start⟩, s.pop)

def blockMappingKey (s : EventStream) : Step := do
  let (t, s) ← s.peek
  match t.kind with
  | .key =>
    let place := t.stop
    let (t, s) ← s.drop.peek
    match t.kind with
    | .key | .value | .blockEnd => s.emptyScalar .blockMappingValue place
    | _ => (s.expecting .blockMappingValue).node true true
  | .blockEnd => return (⟨.mappingEnd, t.start⟩, s.close.drop)
  | _ => .error (.structure .expectedKey s.context t.start)

def blockMappingValue (s : EventStream) : Step := do
  let (t, s) ← s.peek
  match t.kind with
  | .value =>
    let place := t.stop
    let (t, s) ← s.drop.peek
    match t.kind with
    | .key | .value | .blockEnd => s.emptyScalar .blockMappingKey place
    | _ => (s.expecting .blockMappingKey).node true true
  | _ => s.emptyScalar .blockMappingKey t.start

/-! ## Brackets -/

/-- Reads an entry of a sequence in brackets; a comma comes before all but the first. -/
def flowSequenceEntry (s : EventStream) (first : Bool) : Step := do
  let (t, s) ← s.peek
  let (t, s) ←
    if t.kind == .flowSequenceEnd || first then pure (t, s)
    else if t.kind == .flowEntry then s.drop.peek
    else .error (.structure .expectedFlowSequenceEntry s.context t.start)
  match t.kind with
  | .flowSequenceEnd => return (⟨.sequenceEnd, t.start⟩, s.close.drop)
  | .key => return (⟨.mappingStart [] [], t.start⟩, { s.drop with expect := .pairKey })
  | _ => (s.expecting .flowSequenceEntry).node false false

/-- Reads the key of a pair that is an entry of a sequence. -/
def pairKey (s : EventStream) : Step := do
  let (t, s) ← s.peek
  match t.kind with
  | .value | .flowEntry | .flowSequenceEnd => s.drop.emptyScalar .pairValue t.stop
  | _ => (s.expecting .pairValue).node false false

/-- Reads the value of a pair that is an entry of a sequence. -/
def pairValue (s : EventStream) : Step := do
  let (t, s) ← s.peek
  match t.kind with
  | .value =>
    let (u, s) ← s.drop.peek
    match u.kind with
    | .flowEntry | .flowSequenceEnd => s.emptyScalar .pairEnd t.start
    | _ => (s.expecting .pairEnd).node false false
  | _ => s.emptyScalar .pairEnd t.start

/-- Ends a pair that is an entry of a sequence. -/
def pairEnd (s : EventStream) : Step := do
  let (t, s) ← s.peek
  return (⟨.mappingEnd, t.start⟩, { s with expect := .flowSequenceEntry })

/-- Reads a key of a mapping in brackets; a comma comes before all but the first. -/
def flowMappingKey (s : EventStream) (first : Bool) : Step := do
  let (t, s) ← s.peek
  let (t, s) ←
    if t.kind == .flowMappingEnd || first then pure (t, s)
    else if t.kind == .flowEntry then s.drop.peek
    else .error (.structure .expectedFlowMappingEntry s.context t.start)
  match t.kind with
  | .flowMappingEnd => return (⟨.mappingEnd, t.start⟩, s.close.drop)
  | .key =>
    let (t, s) ← s.drop.peek
    match t.kind with
    | .value | .flowEntry | .flowMappingEnd => s.emptyScalar .flowMappingValue t.start
    | _ => (s.expecting .flowMappingValue).node false false
  | _ => (s.expecting .flowMappingNoValue).node false false

def flowMappingValue (s : EventStream) : Step := do
  let (t, s) ← s.peek
  match t.kind with
  | .value =>
    let (t, s) ← s.drop.peek
    match t.kind with
    | .flowEntry | .flowMappingEnd => s.emptyScalar .flowMappingKey t.start
    | _ => (s.expecting .flowMappingKey).node false false
  | _ => s.emptyScalar .flowMappingKey t.start

/-- The missing value of a key that no colon follows. -/
def flowMappingNoValue (s : EventStream) : Step := do
  let (t, s) ← s.peek
  s.emptyScalar .flowMappingKey t.start

def streamStart (s : EventStream) : Step := do
  let (t, s) ← s.peek
  return (⟨.streamStart, t.start⟩, { s.drop with expect := .firstDocument })

def entering (s : EventStream) (k : EventStream → Step) : Step := do
  let (t, s) ← s.peek
  k (s.enter t)

def next (s : EventStream) : Step :=
  match s.expect with
  | .streamStart => s.streamStart
  | .firstDocument => s.document true
  | .document => s.document false
  | .documentContent => s.documentContent
  | .documentEnd => s.documentEnd
  | .blockNode => s.node true false
  | .blockSequenceFirst => s.entering blockSequenceEntry
  | .blockSequenceEntry => s.blockSequenceEntry
  | .indentlessEntry => s.indentlessEntry
  | .blockMappingFirst => s.entering blockMappingKey
  | .blockMappingKey => s.blockMappingKey
  | .blockMappingValue => s.blockMappingValue
  | .flowSequenceFirst => s.entering (flowSequenceEntry · true)
  | .flowSequenceEntry => s.flowSequenceEntry false
  | .pairKey => s.pairKey
  | .pairValue => s.pairValue
  | .pairEnd => s.pairEnd
  | .flowMappingFirst => s.entering (flowMappingKey · true)
  | .flowMappingKey => s.flowMappingKey false
  | .flowMappingValue => s.flowMappingValue
  | .flowMappingNoValue => s.flowMappingNoValue
  | .nothing => .error (.structure .pastEnd {} {})

end EventStream

end DeclCheck.Yaml
