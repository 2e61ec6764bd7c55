import DeclCheck.Cli.Check
import DeclCheck.Cli.Help
import DeclCheck.Cli.Show

/-!
# The command line

A command line is held against the commands and their flags first. What is then asked for by the
flags of all commands is set up in turn, colours, the trace and profiles, before the command
itself runs. The trace is written when the command is done, whether it fails or not.
-/
namespace DeclCheck.Cli

/-! ## Colours -/

def chooseColor (flags : FlagSettings) (session : Session) : Except CommandError Session :=
  match colorMode? flags with
  | some mode => .ok { session with color := mode.isUsed session.color }
  | none => .error (.badColor (flags.text "color" "auto"))

/-! ## The trace -/

/-- Where the lines of a trace go. -/
inductive TraceSink where
  | nowhere
  | stderr
  | file (path : Text)
  deriving DecidableEq, Repr, Inhabited

/-- The level that the flags ask for: an output without a level asks for phases. -/
def traceLevel (flags : FlagSettings) : Except CommandError Trace.Level :=
  let name := flags.text "trace-level" "off"
  match Trace.Level.parse? name with
  | none => .error (.badTraceLevel name)
  | some level =>
    .ok (if level = .off && !(flags.text "trace" []).isEmpty then .phase else level)

/-- The tracer that the flags ask for, and where its lines go. Events and spans are numbered on
from those of the session. -/
def tracerOf (flags : FlagSettings) (session : Session) :
    Except CommandError (Trace.Tracer × TraceSink) := do
  let level ← traceLevel flags
  let modeName := flags.text "trace-mode" "stream"
  let output := flags.text "trace" []
  if level = .off then return (.silent, .nowhere)
  let some mode := Trace.StorageMode.parse? modeName | throw (.badTraceMode modeName)
  let capacity := flags.number "trace-ring-size" 4096
  let tracer := (Trace.Tracer.new? level mode .auto output capacity).getD .silent
  let sink : TraceSink :=
    if tracer.output.isNone then .nowhere
    else if output.isEmpty || output == Text.ofString "-" then .stderr
    else .file output
  return ({ tracer with seq := session.events, spanCount := session.spans }, sink)

variable {m : Type → Type} [Monad m] [MonadFiles m]

/-- Makes sure that the lines of a trace can be written. -/
def openSink (sink : TraceSink) : m (Except CommandError Unit) := do
  match sink with
  | .file path => return (← Files.write path []).mapError .traceOutput
  | _ => return .ok ()

/-- Writes the lines of a trace and gives those that belong to the error output. -/
def closeSink (sink : TraceSink) (lines : Text) : m Text := do
  match sink with
  | .nowhere => return []
  | .stderr => return lines
  | .file path =>
    let _ ← Files.write path lines
    return []

/-! ## Profiles -/

def makeProfile (path : Text) : m (Except FileError Unit) :=
  if path.isEmpty then pure (.ok ()) else Files.write path []

def openProfiles (flags : FlagSettings) : m (Except CommandError Unit) := do
  match ← makeProfile (flags.text "cpu-profile" []) with
  | .error e => return .error (.cpuProfile e)
  | .ok () => return (← makeProfile (flags.text "runtime-trace" [])).mapError .runtimeTrace

/-- Makes the file for the profile that is taken after a command, and gives what is said if that
fails. -/
def closeProfiles (flags : FlagSettings) : m Text := do
  match ← makeProfile (flags.text "mem-profile" []) with
  | .error e => return "profiling: heap profile: " ++ e.message ++ "\n"
  | .ok () => return []

/-! ## Commands -/

def helpCommand (args : List Text) : Outcome :=
  match Command.find args with
  | .command c _ => { stdout := c.helpText }
  | .unknown _ =>
    { stderr := "Unknown help topic [" ++
        Text.join " " (args.map fun a => "\x60" ++ a ++ Text.ofString "\x60") ++ "]\n" ++
        Command.root.usage }

def runCommand (around : Surroundings) (session : Session) (c : Command) (flags : FlagSettings)
    (args : List Text) : CommandM m Outcome :=
  match c, args with
  | .check, [target] => checkCommand around flags target
  | .scopes, [path] => scopesCommand around flags path
  | .version, _ => do
    return { stdout := ← orFail id (versionText around.build session.color flags) }
  | .help, args => pure (helpCommand args)
  | c, _ => pure { stdout := c.helpText }

/-- Runs a command with its tracer, and gives the session and the outcome. -/
def runTraced (around : Surroundings) (session : Session) (c : Command) (flags : FlagSettings)
    (args : List Text) (tracer : Trace.Tracer) (sink : TraceSink) : m (Session × Outcome) := do
  let (result, log) ← ((runCommand around session c flags args).run).run {}
  let outcome := match result with
    | .ok o => o
    | .error e => { error := some e }
  let tracer := tracer.moments 0 log.moments.toList
  let profiled ← closeProfiles flags
  let traced ← closeSink sink (tracer.output.getD [])
  let session := if sink = .nowhere && tracer.ring.isNone then session
    else { session with events := tracer.seq, spans := tracer.spanCount }
  return (session, { outcome with stderr := traced ++ outcome.stderr ++ profiled })

/-- Sets up what the flags of all commands ask for and runs a command. -/
def prepareAndRun (around : Surroundings) (session : Session) (c : Command) (flags : FlagSettings)
    (args : List Text) : m (Session × Outcome) := do
  match chooseColor flags session with
  | .error e => return (session, { error := some e })
  | .ok session =>
    match tracerOf flags session with
    | .error e => return (session, { error := some e })
    | .ok (tracer, sink) =>
      match ← openSink sink with
      | .error e => return (session, { error := some e })
      | .ok () =>
        match ← openProfiles flags with
        | .error e => return (session, { error := some e })
        | .ok () => runTraced around session c flags args tracer sink

/-- What is said on the error output about a command line that failed. Declaration errors were
reported already. -/
def complaint (args : List Text) (e : CommandError) : Text :=
  let head : Text := "Error: " ++ e.message ++ "\n"
  match e, Command.find args with
  | .declarations, _ => []
  | .undecodable _, _ => head
  | _, .unknown _ => head ++ "Run 'decaf --help' for usage.\n"
  | _, .command c _ => head ++ c.usage ++ "\n"

def run (around : Surroundings) (session : Session) (args : List Text) : m (Session × Outcome) :=
  let done (o : Outcome) : m (Session × Outcome) := pure (session, o)
  let fail (e : CommandError) : m (Session × Outcome) := done { error := some e }
  match Command.find args with
  | .unknown word => fail (.unknownCommand word)
  | .command c args =>
    match takeFlags c.flags args {} with
    | .error fault => fail (.flag fault)
    | .ok (flags, args) =>
      if flags.truth "help" false || (c = .root && !flags.truth "version" false) then
        done { stdout := c.helpText }
      else if c = .root then done { stdout := "decaf version " ++ around.build.version ++ "\n" }
      else if !c.isRunnable then done { stdout := c.helpText }
      else
        match c.argCount? with
        | some n =>
          if args.length = n then prepareAndRun around session c flags args
          else fail (.argCount n args.length)
        | none => prepareAndRun around session c flags args

end DeclCheck.Cli
