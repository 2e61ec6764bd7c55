import DeclCheck.Decimal
import DeclCheck.Text.Utf8

/-!
# Timers

A timer notes the phases of a run in the order in which they begin, each with how long it took
and a note. Times are in nanoseconds.
-/
namespace DeclCheck

/-- One phase. A phase that has not ended took no time so far. -/
structure Phase where
  name : Text := []
  started : Int := 0
  duration : Int := 0
  note : Text := []
  deriving Repr, Inhabited

structure Timer where
  phases : Array Phase := #[]
  deriving Repr, Inhabited

namespace Timer

def begin (t : Timer) (now : Int) (name : Text) : Timer × Nat :=
  ({ phases := t.phases.push { name, started := now } }, t.phases.size)

def finish (t : Timer) (now : Int) (place : Nat) (note : Text) : Timer :=
  { phases := t.phases.modify place fun p => { p with duration := now - p.started, note } }

/-- Adds the time of a phase to the first one of its name. A name that is new comes last, without
the note. -/
def absorbPhase (t : Timer) (p : Phase) : Timer :=
  match t.phases.findIdx? (·.name == p.name) with
  | some i =>
    { phases := t.phases.modify i fun q => { q with duration := q.duration + p.duration } }
  | none => { phases := t.phases.push { p with note := [] } }

def absorb (t other : Timer) : Timer := other.phases.foldl absorbPhase t

def total (t : Timer) : Int := t.phases.foldl (fun n p => n + p.duration) 0

/-- A line of the table: a name of at least 20 characters and a time in milliseconds. -/
def row (name : Text) (duration : Int) : Text :=
  "  " ++ name ++ Text.spaces (20 - (Text.pieces name).length) ++ " " ++
    (Decimal.quotient 2 1000000 duration).padLeft 7 ++ " ms"

def summary (t : Timer) : Text :=
  "timings:\n" ++
    (t.phases.toList.flatMap fun p =>
      row p.name p.duration ++ (if p.note.isEmpty then [] else Text.ofString "  // " ++ p.note) ++
        [Text.newline]) ++
    row "total" t.total ++ [Text.newline]

end Timer

end DeclCheck
