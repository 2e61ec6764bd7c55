import DeclCheck.Cli.Report
import DeclCheck.Cli.Session

/-!
# Showing scopes and the version

The commands that check nothing: `scopes` shows what the names of a manifest stand for, and
`version` tells what is known about the build.
-/
namespace DeclCheck.Cli

variable {m : Type → Type} [Monad m] [MonadFiles m]

/-- Shows the scopes of a manifest. That it has errors is only noted. -/
def scopesCommand (around : Surroundings) (flags : FlagSettings) (path : Text) :
    CommandM m Outcome := do
  let options : Run.Options := { limit := flags.number "max-diagnostics" 100 }
  let r ← orFail .load (← liftM (Run.checkFile (m := m) around.cwd options none path))
  if r.checked.isNone then throw (.undecodable path)
  if flags.truth "json" false then
    return { stdout := (Report.listing { scopes := true } r).indented 0 ++ [Text.newline] }
  let color := usesColor around flags && around.terminal
  return {
    stdout := ScopeView.renderAll color (flags.truth "inherited" true) (Report.scopesOf r)
    stderr :=
      if r.hasErrors then path ++ " has declaration errors; run decaf check for details\n"
      else [] }

/-- The build as JSON, with the commit and the date where asked for. -/
def buildJson (b : Build) (hash date : Bool) : Json :=
  let b := b.trimmed
  .object (Json.field "tool" (.text "decaf") ++ Json.field "version" (.text b.version) ++
    (if hash then Json.field "git_commit" (.text (Build.orUnknown b.commit)) else []) ++
    (if date then Json.field "build_date" (.text (Build.orUnknown b.date)) else []))

def versionText (b : Build) (color : Bool) (flags : FlagSettings) : Except CommandError Text :=
  let full := flags.truth "full" false
  let hash := full || flags.truth "hash" false
  let date := full || flags.truth "date" false
  let format := flags.text "format" "pretty"
  if format.lowerKeyword == Text.ofString "json" then
    .ok ((buildJson b hash date).indented 0 ++ [Text.newline])
  else if format.lowerKeyword == Text.ofString "pretty" then .ok (b.pretty color hash date)
  else .error (.badVersionFormat format)

end DeclCheck.Cli
