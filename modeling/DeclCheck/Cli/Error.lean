import DeclCheck.Cli.Command
import DeclCheck.Config
import DeclCheck.Run
import DeclCheck.Settings
import DeclCheck.Trace.Tracer

/-!
# Why a command fails

Every cause that ends a command, with its words.
-/
namespace DeclCheck.Cli

inductive CommandError where
  | unknownCommand (word : Text)
  | flag (fault : FlagFault)
  | argCount (wanted given : Nat)
  | badColor (value : Text)
  | badTraceLevel (value : Text)
  | badTraceMode (value : Text)
  | traceOutput (error : FileError)
  | cpuProfile (error : FileError)
  | runtimeTrace (error : FileError)
  | config (error : ConfigError)
  | badFormat (value : Text)
  | badProgress (value : Text)
  | negativeJobs
  | target (error : FileError)
  | listing (failure : Run.Failure)
  | cacheHome
  | cache (error : FileError)
  | run (failure : Run.Failure)
  | declarations
  | load (failure : Run.Failure)
  | undecodable (path : Text)
  | badVersionFormat (value : Text)
  deriving Repr

def CommandError.message : CommandError → Text
  | unknownCommand word => Command.unknownMessage word
  | flag fault => fault.message
  | argCount wanted given =>
    "accepts " ++ Text.ofNat wanted ++ " arg(s), received " ++ Text.ofNat given
  | badColor value => ColorMode.invalidMessage value
  | badTraceLevel value => "invalid trace level: " ++ Trace.Level.invalidMessage value
  | badTraceMode value => "invalid trace mode: " ++ Trace.StorageMode.invalidMessage value
  | traceOutput e => "failed to create tracer: failed to open trace output: " ++ e.message
  | cpuProfile e => "cpu profile: " ++ e.message
  | runtimeTrace e => "runtime trace: " ++ e.message
  | config e => e.message
  | badFormat value => OutputFormat.invalidMessage value
  | badProgress value => ProgressMode.invalidMessage value
  | negativeJobs => "--jobs must not be negative"
  | target e => "failed to stat path: " ++ e.message
  | listing f => f.message
  | cacheHome => "failed to open disk cache: $HOME is not defined"
  | cache e => "failed to open disk cache: " ++ Cache.openMessage e
  | run f => "check failed: " ++ f.message
  | declarations => "declaration errors found"
  | load f => f.message
  | undecodable path => path ++ ": manifest could not be decoded"
  | badVersionFormat value =>
    "unsupported format " ++ value.quote ++ " (must be pretty or json)"

end DeclCheck.Cli
