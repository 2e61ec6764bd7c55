import DeclCheck.Cache
import DeclCheck.Check.Analysis
import DeclCheck.Diagnostic.Bag
import DeclCheck.Manifest.Load
import DeclCheck.Progress
import DeclCheck.Render.Json
import DeclCheck.Source.FileSet
import DeclCheck.Timer
import DeclCheck.Trace

/-!
# Runs

What a run is asked for, what it gives for each file, and what it tells on the way. Here are the
parts that need no file system: what a content reports, how the reports are settled under the
limit of the run, and how times are added to them.
-/
namespace DeclCheck.Run

/-- What a run is asked for. A limit of zero or less is none. -/
structure Options where
  limit : Int := 0
  /-- Drop diagnostics that repeat an earlier one. -/
  dedup : Bool := false
  /-- Report how long the stages took. -/
  timings : Bool := false
  /-- The directory that files are shown relative to. -/
  base : Text := []
  cache : Option Cache := none
  deriving Repr, Inhabited

inductive Failure where
  | load (path : Text) (error : FileError)
  | walk (dir : Text) (error : FileError)
  | build (error : BuildError)
  | fault (fault : CheckFault)
  deriving Repr

def Failure.message : Failure → Text
  | load path e => "driver: load " ++ path ++ ": " ++ e.message
  | walk dir e => "driver: walk " ++ dir ++ ": " ++ e.message
  | build e => e.message
  | fault f => f.message?.getD []

structure Checked where
  loaded : Manifest.Loaded
  result : CheckResult
  deriving Repr, Inhabited

/-- What a run gives for a file. A file that was answered from the cache, or that is no manifest,
was not checked. -/
structure FileResult where
  path : Text
  files : FileSet
  file : FileId := 0
  checked : Option Checked := none
  bag : Bag := {}
  timer : Timer := {}
  cached : Bool := false
  deriving Repr, Inhabited

def FileResult.hasErrors (r : FileResult) : Bool := r.bag.hasErrors

def FileResult.source (r : FileResult) : SourceFile := (r.files.get? r.file).getD {}

/-! ## What a content reports -/

inductive Verdict where
  /-- It is no manifest. -/
  | undecodable (reason : Text)
  | checked (c : Checked)
  deriving Repr, Inhabited

/-- Loads a file and checks its declarations, or only the first `reached` of them. -/
def judge (file : SourceFile) (reached : Option Nat) : Except Failure Verdict :=
  match Manifest.load file with
  | .error (.build e) => .error (.build e)
  | .error e => .ok (.undecodable e.message)
  | .ok loaded =>
    let result := check loaded.tree loaded.unit (some loaded.globals) reached
    match result.fault with
    | some f => .error (.fault f)
    | none => .ok (.checked { loaded, result })

/-- Everything that is reported about a content, in the order of the reports. -/
def Verdict.reports (file : FileId) : Verdict → List Diagnostic
  | undecodable reason => [Diagnostic.error .manifestDecode { file } reason]
  | checked c => (c.loaded.diagnostics ++ c.result.analysis.diagnostics).toList

def Checked.declCount (c : Checked) : Nat :=
  ((c.loaded.tree.unit? c.loaded.unit).map (·.decls.length)).getD 0

def Checked.scopeCount (c : Checked) : Nat := c.result.analysis.table.scopes.size

def Checked.record (c : Checked) (file : SourceFile) : CacheRecord :=
  { version := CacheRecord.currentVersion
    path := file.path
    digest := Digest.sha256 file.content
    decls := c.declCount
    diagnostics := Verdict.reports file.id (.checked c) }

/-! ## Settling -/

/-- Puts reports into a bag, without repeats if that is asked for, and sorts it. Gives the number of
repeats that were dropped. -/
def settle (dedup : Bool) (bag : Bag) (reports : List Diagnostic) : Bag × Nat :=
  if dedup then
    let (sifted, bag) := reports.foldl (fun (f, b) d => RepeatFilter.add f b d)
      (({} : RepeatFilter), bag)
    (bag.sort, sifted.suppressed)
  else ((reports.foldl Bag.add bag).sort, 0)

/-- The bag that a lookup in the cache leaves: an entry that cannot be read is worth a warning. -/
def startBag (limit : Int) (file : FileId) : CacheAnswer → Bag
  | .unreadable reason =>
    (Bag.empty limit).add
      (Diagnostic.warning .cacheError { file } ("ignoring unreadable cache entry: " ++ reason))
  | _ => Bag.empty limit

def noteStored (file : FileId) (bag : Bag) : Except FileError Unit → Bag
  | .ok () => bag
  | .error e =>
    bag.add (Diagnostic.warning .cacheError { file } ("cannot store diagnostics: " ++ e.message))

/-! ## Times -/

def millis (nanos : Int) : Json := .millionths nanos.toNat

def timingJson (display : Text) (t : Timer) : Json :=
  .object (Json.field "kind" (.text "file") ++ Json.nonEmpty "path" display ++
    Json.field "total_ms" (millis t.total) ++
    Json.field "phases" (.list (t.phases.toList.map fun p =>
      .object (Json.field "name" (.text p.name) ++
        Json.field "duration_ms" (millis p.duration) ++ Json.nonEmpty "note" p.note))))

def timingDiagnostic (file : FileId) (display : Text) (t : Timer) : Diagnostic :=
  let message :=
    "timings (file): total " ++ Decimal.quotient 2 1000000 t.total ++ " ms: " ++ display
  { severity := .info, code := .timings, primary := { file }, message,
    notes := [{ span := { file }, message := (timingJson display t).compact }] }

/-- Adds a diagnostic even to a bag that is full; it then counts as dropped all the same. -/
def addAlways (bag : Bag) (d : Diagnostic) : Bag :=
  if bag.isFull then (bag.add d).merge { items := [d], limit := 1 } else bag.add d

/-! ## What is told -/

structure PhaseEvent where
  file : Text
  stage : Progress.Stage
  ended : Bool := false
  note : Text := []
  error : Option Text := none
  deriving Repr, Inhabited

/-- What a run tells: moments with their times for the trace, progress, and phases. -/
structure Log where
  moments : Array (Int × Trace.Moment) := #[]
  /-- How many spans were begun. -/
  spans : Nat := 0
  /-- The span of the surroundings. -/
  around : Nat := 0
  events : Array Progress.Event := #[]
  phases : Array PhaseEvent := #[]
  deriving Repr, Inhabited

/-- How a result ends in progress: taken from the cache, with errors, or without. -/
def finalStatus (r : FileResult) : Progress.Status :=
  if r.cached then .cached else if r.hasErrors then .error else .done

end DeclCheck.Run
