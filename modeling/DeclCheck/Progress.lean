import DeclCheck.Decimal
import DeclCheck.Source.Path
import DeclCheck.Text.Utf8

/-!
# Progress

While files are checked, events tell how far each of them is. An event is about one stage of a
file, or about the file as a whole if it names no stage.
-/
namespace DeclCheck

namespace Progress

/-- A stage of checking one file; the empty name is the file as a whole. -/
structure Stage where
  name : Text := []
  deriving DecidableEq, Repr, Inhabited

namespace Stage

def whole : Stage := {}

def load : Stage := ⟨"load"⟩

/-- Its declarations are analysed. -/
def sema : Stage := ⟨"sema"⟩

/-- Its diagnostics are taken from the cache. -/
def cache : Stage := ⟨"cache"⟩

def all : List Stage := [load, sema]

end Stage

structure Status where
  name : Text := []
  deriving DecidableEq, Repr, Inhabited

namespace Status

def queued : Status := ⟨"queued"⟩
def working : Status := ⟨"working"⟩
def done : Status := ⟨"done"⟩
def cached : Status := ⟨"cached"⟩
def error : Status := ⟨"error"⟩

end Status

/-- How far a file is; the elapsed time is in nanoseconds. -/
structure Event where
  file : Text := []
  stage : Stage := {}
  status : Status := {}
  error : Option Text := none
  elapsed : Int64 := 0
  deriving Repr, Inhabited

/-- Tells that files are waiting to be loaded. -/
def queuedEvents (files : List Text) : List Event :=
  files.map fun file => { file, stage := .load, status := .queued }

/-! ## Times of stages -/

/-- The time that the stages took, summed over files. -/
structure Timings where
  stages : List (Stage × Int64) := []
  deriving Repr, Inhabited

namespace Timings

def has (t : Timings) (s : Stage) : Bool := t.stages.any (·.1 == s)

def duration (t : Timings) (s : Stage) : Int64 :=
  match t.stages.find? (·.1 == s) with
  | some (_, d) => d
  | none => 0

def add (t : Timings) (s : Stage) (d : Int64) : Timings :=
  if t.has s then
    { stages := t.stages.map fun (s', d') => if s' == s then (s', d' + d) else (s', d') }
  else { stages := t.stages ++ [(s, d)] }

def sum (t : Timings) (ss : List Stage) : Int64 := ss.foldl (fun n s => n + t.duration s) 0

def note (t : Timings) (e : Event) : Timings :=
  if e.stage = .whole then t
  else if e.status = .done || e.status = .error then t.add e.stage e.elapsed
  else t

def ofEvents (es : List Event) : Timings := es.foldl note {}

def row (verb : Text) (d : Int64) : Text :=
  verb ++ " " ++ Decimal.quotient 1 1000000 d.toInt ++ " ms\n"

def report (t : Timings) : Text :=
  (if t.has .load then row "loaded" (t.duration .load) else []) ++
    (if t.has .sema then row "resolved" (t.duration .sema) else []) ++
    row "total" (t.sum Stage.all)

end Timings

/-! ## Names of files -/

/-- The name of a file in progress: its path from `base` if it lies below it, and else its
absolute path. Without a base it is the clean path. -/
def displayPath (cwd base file : Text) : Text :=
  let path := Path.clean file
  if base.isEmpty then path
  else
    let path := Path.absolute cwd path
    match Path.relative? base path with
    | some rel => if rel == Path.here || rel.startsWith Path.up then path else rel
    | none => path

/-- Keeps the first of equal texts. -/
def distinct : List Text → List Text
  | [] => []
  | t :: ts => t :: (distinct ts).filter (· != t)

/-- The names of the files in order, each once. Empty paths are left out. -/
def displayFiles (cwd base : Text) (files : List Text) : List Text :=
  let base := base.trim
  let base := if base.isEmpty then base else Path.absolute cwd base
  let names := (files.filter (!·.isEmpty)).map (displayPath cwd base)
  (distinct names).mergeSort fun s t => Text.compare s t != .gt

end Progress

end DeclCheck
