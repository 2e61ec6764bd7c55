import DeclCheck.Run

/-!
# Checking one file

A file is read, looked up in the cache, loaded and checked, and stored in the cache. Each of its
two stages is timed and told to the trace, to progress and to phases.
-/
namespace DeclCheck.Run

/-- A computation that tells what happens. -/
abbrev RunM (m : Type → Type) := StateT Log m

variable {m : Type → Type} [Monad m] [MonadFiles m]

def files {α : Type} (act : m α) : RunM m α := liftM act

def now : RunM m Int := files MonadFiles.now

def tell (moment : Trace.Moment) : RunM m Unit := do
  let t ← now
  modify fun l => { l with moments := l.moments.push (t, moment) }

/-- Begins a span inside that of the surroundings, and gives its number. -/
def beginSpan (scope : Trace.EventScope) (name : Text) : RunM m Nat := do
  let t ← now
  modifyGet fun l =>
    (l.spans + 1,
      { l with spans := l.spans + 1, moments := l.moments.push (t, .begins scope name l.around) })

/-- Takes a span as that of the surroundings, and gives the one before. -/
def enterSpan (span : Nat) : RunM m Nat :=
  modifyGet fun l => (l.around, { l with around := span })

/-- Tells the moments of an analysis, as part of the surroundings. -/
def tellAll (moments : Array Trace.Moment) (spans : Nat) : RunM m Unit := do
  let l ← get
  for moment in moments.map (·.within l.spans l.around) do
    tell moment
  modify fun l => { l with spans := l.spans + spans }

def event (e : Progress.Event) : RunM m Unit :=
  modify fun l => { l with events := l.events.push e }

def phase (e : PhaseEvent) : RunM m Unit :=
  modify fun l => { l with phases := l.phases.push e }

/-- A stage that has begun: its place in the timer and when it began. -/
structure OpenStage where
  stage : Progress.Stage
  /-- Its span. -/
  span : Nat
  place : Nat
  started : Int
  deriving Repr, Inhabited

def beginStage (display : Text) (timer : Timer) (stage : Progress.Stage) :
    RunM m (Timer × OpenStage) := do
  let span ← beginSpan .pass stage.name
  let started ← now
  let (timer, place) := timer.begin started stage.name
  event { file := display, stage, status := .working }
  phase { file := display, stage }
  return (timer, { stage, span, place, started })

def endStage (display : Text) (timer : Timer) (s : OpenStage) (note : Text)
    (error : Option Text) : RunM m Timer := do
  let t ← now
  tell (.ends s.span note)
  event
    { file := display, stage := s.stage, error, elapsed := Int64.ofInt (t - s.started)
      status := if error.isSome then .error else .done }
  phase { file := display, stage := s.stage, ended := true, note, error }
  return timer.finish t s.place note

def lookup (cache : Option Cache) (file : SourceFile) : RunM m CacheAnswer := do
  match cache with
  | none => return .miss
  | some c =>
    let span ← beginSpan .pass "cache_lookup"
    let answer ← files (c.get (Cache.key (Digest.sha256 file.content)))
    match answer with
    | .hit record => tell (.notes span "diagnostics" (Text.ofNat record.diagnostics.length))
    | _ => pure ()
    tell (.ends span [])
    return answer

def store (cache : Option Cache) (file : SourceFile) (c : Checked) :
    RunM m (Except FileError Unit) := do
  match cache with
  | none => return .ok ()
  | some cache => files (cache.put (Cache.key (Digest.sha256 file.content)) (c.record file))

/-- Tells that a file is done and adds its times if they are asked for. -/
def finish (o : Options) (display : Text) (started : Int) (r : FileResult) :
    RunM m FileResult := do
  let t ← now
  event { file := display, status := finalStatus r, elapsed := Int64.ofInt (t - started) }
  return if o.timings then
    { r with bag := addAlways r.bag (timingDiagnostic r.file display r.timer) } else r

def answerFromCache (o : Options) (display : Text) (started : Int) (loading : OpenStage)
    (r : FileResult) (record : CacheRecord) : RunM m FileResult := do
  let (bag, _) := settle o.dedup (Bag.empty o.limit) (record.diagnosticsFor r.file)
  let timer ← endStage display r.timer loading "cached" none
  event { file := display, stage := .cache, status := .cached }
  finish o display started { r with bag, timer, cached := true }

/-- Loads and checks a file and stores what is reported. The bag may hold a warning. -/
def checkAfresh (o : Options) (reached : Option Nat) (display : Text) (started : Int)
    (loading : OpenStage) (r : FileResult) (bag : Bag) : RunM m (Except Failure FileResult) := do
  match judge r.source reached with
  | .error f => return .error f
  | .ok verdict =>
    let (bag, repeats) := settle o.dedup bag (verdict.reports r.file)
    match verdict with
    | .undecodable _ =>
      let timer ← endStage display r.timer loading "decode failed" none
      return .ok (← finish o display started { r with bag, timer })
    | .checked c =>
      let timer ← endStage display r.timer loading ("decls=" ++ Text.ofNat c.declCount) none
      let (timer, checking) ← beginStage display timer .sema
      tellAll c.result.analysis.moments c.result.analysis.spans
      let note := "scopes=" ++ Text.ofNat c.scopeCount ++ " repeats=" ++ Text.ofNat repeats
      let timer ← endStage display timer checking note none
      let bag := noteStored r.file bag (← store o.cache r.source c)
      return .ok (← finish o display started { r with bag, timer, checked := some c })

/-- Checks a file whose content is known, from the lookup in the cache on. -/
def checkSource (o : Options) (reached : Option Nat) (display : Text) (started : Int)
    (loading : OpenStage) (r : FileResult) : RunM m (Except Failure FileResult) := do
  match ← lookup o.cache r.source with
  | .hit record => return .ok (← answerFromCache o display started loading r record)
  | answer =>
    checkAfresh o reached display started loading r (startBag o.limit r.file answer)

def displayBase (cwd base : Text) : Text := if base.isEmpty then [] else Path.absolute cwd base

/-- Checks a file, or only its first `reached` declarations. -/
def checkFile (cwd : Text) (o : Options) (reached : Option Nat) (path : Text) :
    RunM m (Except Failure FileResult) := do
  let span ← beginSpan .module "check_file"
  let around ← enterSpan span
  tell (.notes span "path" path)
  let display := Progress.displayPath cwd (displayBase cwd o.base) path
  let started ← now
  let (timer, loading) ← beginStage display {} .load
  let result ← match ← files (Files.read path) with
    | .error e => do
      let _ ← endStage display timer loading [] (some e.message)
      pure (.error (.load path e))
    | .ok bytes => do
      let (fs, file) := ({ base := o.base, cwd } : FileSet).addRead path bytes
      checkSource o reached display started loading { path, files := fs, file, timer }
  tell (.ends span [])
  let _ ← enterSpan around
  return result

end DeclCheck.Run
