import DeclCheck.Cli.Report
import DeclCheck.Cli.Session
import DeclCheck.Run.Files

/-!
# Checking from the command line

What `check` is asked for comes from its flags and, where these say nothing, from the configuration
of the project. A manifest is checked alone, and of a directory all manifests are.
-/
namespace DeclCheck.Cli

structure CheckSettings where
  format : OutputFormat := .pretty
  limit : Int := 100
  dedup : Bool := false
  jobs : Int := 0
  notes : Bool := false
  scopes : Bool := false
  progress : ProgressMode := .auto
  useCache : Bool := false
  /-- Empty if the cache stands in its usual place. -/
  cacheDir : Text := []
  fullPath : Bool := false
  timings : Bool := false
  quiet : Bool := false
  deriving Repr, Inhabited

namespace CheckSettings

/-- The value of a flag that was set, else that of the configuration, else the default. -/
def choose {α : Type} (flags : FlagSettings) (name : Text) (ofFlag : α) (configured : Option α) :
    α :=
  if flags.isSet name then ofFlag else configured.getD ofFlag

def resolve (flags : FlagSettings) (project : Option ProjectConfig) :
    Except CommandError CheckSettings := do
  let config : Config := (project.map (·.config)).getD {}
  let formatName := choose flags "format" (flags.text "format" "pretty") config.format
  let progressName := flags.text "ui" "auto"
  let some format := OutputFormat.parse? formatName | throw (.badFormat formatName)
  let some progress := ProgressMode.parse? progressName | throw (.badProgress progressName)
  let jobs := choose flags "jobs" (flags.number "jobs" 0) config.jobs
  if jobs < 0 then throw .negativeJobs
  return {
    format, progress, jobs
    limit := choose flags "max-diagnostics" (flags.number "max-diagnostics" 100)
      config.maxDiagnostics
    dedup := choose flags "dedup" (flags.truth "dedup" false) config.dedup
    notes := flags.truth "with-notes" false
    scopes := flags.truth "with-scopes" false
    useCache := choose flags "disk-cache" (flags.truth "disk-cache" false) config.enabled
    cacheDir := (project.map (·.cacheDir)).getD []
    fullPath := flags.truth "fullpath" false
    timings := flags.truth "timings" false
    quiet := flags.truth "quiet" false }

/-- How paths are shown: those of a directory relative to it, unless all are to be shown whole. -/
def paths (s : CheckSettings) (isDir : Bool) : PathStyle :=
  if s.fullPath then .absolute else if isDir then .relative else .auto

end CheckSettings

def usualCacheDir (around : Surroundings) : Except CommandError Text :=
  if !around.cacheHome.isEmpty then .ok (Path.join [around.cacheHome, "decaf"])
  else if around.home.isEmpty then .error .cacheHome
  else .ok (Path.join [around.home, ".cache", "decaf"])

variable {m : Type → Type} [Monad m] [MonadFiles m]

def openCache (around : Surroundings) (s : CheckSettings) : CommandM m (Option Cache) := do
  if !s.useCache then return none
  let dir ← if s.cacheDir.isEmpty then orFail id (usualCacheDir around) else pure s.cacheDir
  return some (← orFail .cache (← onFiles (Cache.openAt dir)))

/-- The files of a target: itself, or the manifests below it. -/
def filesOf (target : Text) (isDir : Bool) : CommandM m (List Text) := do
  if isDir then orFail .listing (← onFiles (Run.manifests target)) else return [target]

def checkCommand (around : Surroundings) (flags : FlagSettings) (target : Text) :
    CommandM m Outcome := do
  let project ← orFail .config (← onFiles (Config.load around.cwd target))
  let s ← orFail id (CheckSettings.resolve flags project)
  let kind ← orFail .target (← onFiles (Files.stat target))
  let isDir : Bool := kind = .directory
  let files ← filesOf target isDir
  let base := Path.absolute around.cwd (if isDir then target else Path.dir target)
  let cache ← openCache around s
  let options : Run.Options :=
    { limit := s.limit, dedup := s.dedup, timings := s.timings, base, cache }
  let results ← orFail .run (← liftM (Run.checkFiles (m := m) around.cwd options files))
  let log ← getThe Run.Log
  let stdout := Report.render
    { format := s.format, color := usesColor around flags, paths := s.paths isDir, notes := s.notes,
      scopes := s.scopes, quiet := s.quiet, isDir } results
  return {
    stdout
    stderr :=
      if s.timings && !s.quiet then (Progress.Timings.ofEvents log.events.toList).report else []
    error := if results.any (·.hasErrors) then some .declarations else none }

end DeclCheck.Cli
