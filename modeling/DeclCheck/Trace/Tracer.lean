import DeclCheck.Trace.Line
import DeclCheck.Trace.Ring

/-!
# Tracers

A tracer numbers the events that its level admits and writes them to a stream, keeps the last of
them in a ring, or does both. Heartbeats pass at every level. Each place has its own number for an
event, the stream's before the ring's.

Spans are numbered from one as they begin. A span that is not admitted has number zero, and
nothing is told of it.
-/
namespace DeclCheck.Trace

/-- Where a tracer puts its events. Zero and numbers above three are no mode. -/
structure StorageMode where
  number : UInt8
  deriving DecidableEq, Repr, Inhabited

namespace StorageMode

def stream : StorageMode := ⟨1⟩
def ring : StorageMode := ⟨2⟩
def both : StorageMode := ⟨3⟩

def named : List (Text × StorageMode) := [("stream", stream), ("ring", ring), ("both", both)]

def label (m : StorageMode) : Text :=
  match named.find? (·.2 == m) with
  | some (name, _) => name
  | none => "unknown"

def parse? (t : Text) : Option StorageMode :=
  (named.find? fun (name, _) => t.lowerKeyword == name).map (·.2)

def invalidMessage (t : Text) : Text :=
  "invalid storage mode: " ++ t.quote ++ " (expected: stream|ring|both)"

end StorageMode

structure SpanRecord where
  id : Nat := 0
  parent : Nat := 0
  scope : EventScope := .node
  name : Text := []
  /-- Nanoseconds since 1970. -/
  started : Int := 0
  facts : Facts := []
  deriving Repr, Inhabited

/-- An event as a ring keeps it. An end that came with facts tells all facts of its span, also
those that are learned later. -/
structure Kept where
  event : Event
  endOf : Option Nat := none
  deriving Repr, Inhabited

structure Tracer where
  level : Level
  format : LineFormat := .text
  output : Option Text := none
  ring : Option (Ring Kept) := none
  /-- How many events were numbered. -/
  seq : Nat := 0
  /-- How many spans were numbered. -/
  spanCount : Nat := 0
  /-- The spans in the order in which they were asked for. -/
  spans : Array SpanRecord := #[]
  deriving Repr

namespace Tracer

def silent : Tracer := { level := .off }

/-- A tracer for an output with a given name. There is none for a number that is no mode, unless
nothing is traced. -/
def new? (level : Level) (mode : StorageMode) (format : LineFormat) (output : Text)
    (capacity : Int) : Option Tracer :=
  if level = .off then some silent
  else
    let t : Tracer := { level, format := format.resolve output }
    if mode = .stream then some { t with output := some [] }
    else if mode = .ring then some { t with ring := some (Ring.empty capacity) }
    else if mode = .both then
      some { t with output := some [], ring := some (Ring.empty capacity) }
    else none

def unknownModeMessage (mode : StorageMode) : Text := "unknown storage mode: " ++ mode.label

def toStream (t : Tracer) (e : Event) : Tracer :=
  match t.output with
  | none => t
  | some out =>
    { t with
      seq := t.seq + 1
      output := some (out ++ Event.line t.format { e with seq := t.seq + 1 }) }

def toRing (t : Tracer) (e : Event) (endOf : Option Nat) : Tracer :=
  match t.ring with
  | none => t
  | some r =>
    { t with
      seq := t.seq + 1
      ring := some (r.push { event := { e with seq := t.seq + 1 }, endOf }) }

/-- Are there heartbeats if one is wanted each so many milliseconds? -/
def beats (t : Tracer) (interval : Int) : Bool := t.level.isEnabled && 0 < interval

def isTold (t : Tracer) (e : Event) : Bool := t.level.admits e.scope || e.kind = .heartbeat

def emit (t : Tracer) (e : Event) (endOf : Option Nat) : Tracer :=
  if t.isTold e then (t.toStream e).toRing e endOf else t

/-- Begins a span at a time and gives its place in the order of the spans. -/
def begin (t : Tracer) (now : Int) (scope : EventScope) (name : Text) (parent : Nat) :
    Tracer × Nat :=
  let place := t.spans.size
  if t.level.admits scope then
    let id := t.spanCount + 1
    let t := { t with
      spanCount := id
      spans := t.spans.push { id, parent, scope, name, started := now } }
    (t.emit { micros := now / 1000, kind := .begins, scope, span := id, parent, name } none, place)
  else ({ t with spans := t.spans.push {} }, place)

def spanId (t : Tracer) (place : Nat) : Nat := (t.spans[place]?.map (·.id)).getD 0

def addFact (t : Tracer) (place : Nat) (key value : Text) : Tracer :=
  if t.spanId place = 0 then t
  else
    { t with spans := t.spans.modify place fun s => { s with facts := s.facts.insert key value } }

def finish (t : Tracer) (now : Int) (place : Nat) (detail : Text) : Tracer :=
  match t.spans[place]? with
  | none => t
  | some s =>
    if s.id = 0 then t
    else
      t.emit
        { micros := now / 1000, kind := .ends, scope := s.scope, span := s.id, parent := s.parent,
          name := s.name, detail, elapsed := now - s.started, extra := s.facts }
        (if s.facts.isEmpty then none else some place)

def point (t : Tracer) (now : Int) (scope : EventScope) (name detail : Text) (parent : Nat) :
    Tracer :=
  if t.level.admits scope then
    t.emit { micros := now / 1000, kind := .point, scope, name, detail, parent } none
  else t

def snapshot? (t : Tracer) : Option (List Event) :=
  t.ring.map fun r => r.toList.map fun k =>
    match k.endOf.bind (t.spans[·]?) with
    | some s => { k.event with extra := s.facts }
    | none => k.event

def dump? (t : Tracer) (f : LineFormat) : Option Text :=
  t.snapshot?.map fun es => es.flatMap (Event.line f)

/-! ## Moments -/

/-- A span that a phase has begun: its place, and the span that is innermost inside it. -/
structure Begun where
  place : Nat
  current : Nat
  deriving Repr, Inhabited

/-- The span that a phase knows by a number. -/
def begun? (begun : Array Begun) : Nat → Option Begun
  | 0 => none
  | k + 1 => begun[k]?

/-- The span that is innermost inside one of a phase: that one itself if it is admitted. -/
def currentOf (surroundings : Nat) (begun : Array Begun) (span : Nat) : Nat :=
  (begun? begun span).elim surroundings (·.current)

/-- Tells one moment of a phase, given the spans that the phase has begun. -/
def moment (surroundings : Nat) (t : Tracer) (begun : Array Begun) (now : Int) :
    Moment → Tracer × Array Begun
  | .begins scope name parent =>
    let around := currentOf surroundings begun parent
    let (t, place) := t.begin now scope name around
    let id := t.spanId place
    (t, begun.push { place, current := if id = 0 then around else id })
  | .notes span key value =>
    match begun? begun span with
    | none => (t, begun)
    | some b => (t.addFact b.place key value, begun)
  | .ends span detail =>
    match begun? begun span with
    | none => (t, begun)
    | some b => (t.finish now b.place detail, begun)
  | .point scope name detail parent =>
    (t.point now scope name detail (currentOf surroundings begun parent), begun)

/-- Tells the moments of a phase with their times, in nanoseconds since 1970. -/
def moments (t : Tracer) (surroundings : Nat) (ms : List (Int × Moment)) : Tracer :=
  (ms.foldl (fun (t, begun) (now, m) => moment surroundings t begun now m) (t, #[])).1

end Tracer

end DeclCheck.Trace
