import DeclCheck.Text.Quoted
import DeclCheck.Text.Utf8

/-!
# Trace events

What happens during a run is told as events: spans begin and end, and points lie between. An
event has a scope, from a whole command down to one declaration; a level says which scopes are
told.
-/
namespace DeclCheck

namespace Trace

/-- What an event tells. Zero and numbers above four tell nothing known. -/
structure EventKind where
  number : UInt8
  deriving DecidableEq, Repr, Inhabited

namespace EventKind

def begins : EventKind := ⟨1⟩
def ends : EventKind := ⟨2⟩
def point : EventKind := ⟨3⟩
def heartbeat : EventKind := ⟨4⟩

def label (k : EventKind) : Text :=
  if k = begins then "begin"
  else if k = ends then "end"
  else if k = point then "point"
  else if k = heartbeat then "heartbeat"
  else "unknown"

end EventKind

/-- How much an event is about; a lower number is coarser. -/
structure EventScope where
  number : UInt8
  deriving DecidableEq, Repr, Inhabited

namespace EventScope

/-- A command. -/
def driver : EventScope := ⟨1⟩

/-- A phase. -/
def pass : EventScope := ⟨2⟩

/-- A file. -/
def module : EventScope := ⟨3⟩

/-- A declaration. -/
def node : EventScope := ⟨4⟩

def label (s : EventScope) : Text :=
  if s = driver then "driver"
  else if s = pass then "pass"
  else if s = module then "module"
  else if s = node then "node"
  else "unknown"

end EventScope

structure Level where
  number : UInt8
  deriving DecidableEq, Repr, Inhabited

namespace Level

def off : Level := ⟨0⟩
def error : Level := ⟨1⟩
def phase : Level := ⟨2⟩
def detail : Level := ⟨3⟩
def debug : Level := ⟨4⟩

def named : List (Text × Level) :=
  [("off", off), ("error", error), ("phase", phase), ("detail", detail), ("debug", debug)]

def label (l : Level) : Text :=
  match named.find? (·.2 == l) with
  | some (name, _) => name
  | none => "unknown"

def parse? (t : Text) : Option Level :=
  (named.find? fun (name, _) => t.matchesKeyword name).map (·.2)

def invalidMessage (t : Text) : Text :=
  "invalid trace level: " ++ t.quote ++ " (expected: off|error|phase|detail|debug)"

def isEnabled (l : Level) : Bool := 0 < l.number

def admits (l : Level) (s : EventScope) : Bool :=
  if l = phase then s.number ≤ EventScope.pass.number
  else if l = detail then s.number ≤ EventScope.module.number
  else l = debug

end Level

/-- What is known about a span beside its name: values by key, the keys in order. -/
abbrev Facts := List (Text × Text)

/-- The facts with a value for a key; a value that was there before is gone. -/
def Facts.insert (key value : Text) : Facts → Facts
  | [] => [(key, value)]
  | (k, v) :: rest =>
    match Text.compare key k with
    | .lt => (key, value) :: (k, v) :: rest
    | .eq => (key, value) :: rest
    | .gt => (k, v) :: insert key value rest

/-- The facts of a list of pairs, where a later value replaces an earlier one. -/
def Facts.ofList (pairs : List (Text × Text)) : Facts :=
  pairs.foldl (fun facts (k, v) => facts.insert k v) []

/-- One event. The time is in microseconds since 1970 and the elapsed time in nanoseconds. -/
structure Event where
  micros : Int := 0
  /-- Seconds east of the prime meridian. -/
  zone : Int := 0
  seq : Nat := 0
  kind : EventKind := .point
  scope : EventScope := .node
  span : Nat := 0
  parent : Nat := 0
  thread : Nat := 0
  name : Text := []
  detail : Text := []
  elapsed : Int := 0
  extra : Facts := []
  deriving Repr, Inhabited

/-- What a running phase tells: it begins and ends spans, notes facts about them and tells points.
The phase knows a span by how many it had begun with that one, and zero stands for what is around
the phase. -/
inductive Moment where
  | begins (scope : EventScope) (name : Text) (parent : Nat)
  | notes (span : Nat) (key value : Text)
  | ends (span : Nat) (detail : Text)
  | point (scope : EventScope) (name detail : Text) (parent : Nat)
  deriving Repr, Inhabited

/-- A moment of a phase as one of a longer phase that has begun `begun` spans before, inside the
span `around`. -/
def Moment.within (begun around : Nat) : Moment → Moment
  | begins scope name parent => begins scope name (place parent)
  | notes span key value => notes (place span) key value
  | ends span detail => ends (place span) detail
  | point scope name detail parent => point scope name detail (place parent)
where
  place : Nat → Nat
    | 0 => around
    | k + 1 => begun + (k + 1)

end Trace

end DeclCheck
