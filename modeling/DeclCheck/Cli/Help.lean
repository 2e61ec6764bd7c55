import DeclCheck.Cli.Command
import DeclCheck.Text.Utf8

/-!
# Help

What is said about a command: its purpose, how it is called, its flags in the order of their names,
and for the program its commands.
-/
namespace DeclCheck.Cli

namespace Flag

def kindWord (f : Flag) : Text :=
  match f.kind with
  | .text => " string"
  | .number => " int"
  | .truth => []
  | .duration => " duration"

def head (f : Flag) : Text :=
  Text.spaces (if f.letter.isSome then 2 else 6) ++ f.names ++ f.kindWord

/-- The default of a flag as it is shown; a text stands between quotes. -/
def defaultNote (f : Flag) : Text :=
  let shown := if f.kind = .text then f.shownDefault.quote else f.shownDefault
  if f.shownDefault.isEmpty then [] else " (default " ++ shown ++ ")"

/-- Flags in the order of their names, one a line, with their purposes in a column. -/
def table (fs : List Flag) : Text :=
  let sorted := fs.mergeSort fun f g => Text.compare f.name g.name != .gt
  let width := sorted.foldl (fun w f => max w f.head.length) 0
  Text.join [Text.newline] (sorted.map fun f =>
    f.head.padRight width ++ Text.spaces 3 ++ f.purpose ++ f.defaultNote)

end Flag

namespace Command

def path : Command → Text
  | root => root.name
  | c => root.name ++ " " ++ c.name

def usageLine : Command → Text
  | check => "decaf check [flags] <manifest.yaml|directory>"
  | scopes => "decaf scopes [flags] <manifest.yaml>"
  | help => "decaf help [command] [flags]"
  | c => c.path ++ " [flags]"

def purpose : Command → Text
  | root => "Declaration checker for class-based programs"
  | check => "Resolve the declarations of a manifest or of every manifest in a directory"
  | scopes => "Print the resolved scope table of every class, interface and function"
  | version => "Show decaf build metadata"
  | help => "Help about any command"
  | completion => "Generate the autocompletion script for the specified shell"

def fullPurpose : Command → Text
  | root => "decaf resolves class, interface and function declarations and reports conflicts, " ++
      Text.ofString "override mismatches and unimplemented interfaces"
  | check =>
    "Resolve class, interface and function declarations and report conflicts,\n" ++
      Text.ofString "override mismatches, unimplemented interfaces and undeclared names.\n" ++
      "Directories are searched recursively for *.yaml and *.yml manifests."
  | help =>
    "Help provides help for any command in the application.\n" ++
      Text.ofString "Simply type decaf help [path to command] for full details."
  | completion =>
    "Generate the autocompletion script for decaf for the specified shell.\n" ++
      Text.ofString "See each sub-command's help for details on how to use the generated script."
  | c => c.purpose

/-- What can stand behind the name of a command, with its purpose, in the order of the names. -/
def parts : Command → List (Text × Text)
  | root =>
    (all.map fun c => (c.name, c.purpose)).mergeSort fun a b => Text.compare a.1 b.1 != .gt
  | completion =>
    (["bash", "fish", "powershell", "zsh"] : List Text).map fun shell =>
      (shell, "Generate the autocompletion script for " ++ shell)
  | _ => []

def partWidth : Nat := 11

def partTable (c : Command) : Text :=
  c.parts.flatMap fun (name, purpose) =>
    [Text.newline] ++ Text.spaces 2 ++ name.padRight partWidth ++ " " ++ purpose

def callLines (c : Command) : Text :=
  let itself : Text := if c.isRunnable then "\n  " ++ c.usageLine else []
  let withParts : Text :=
    if c.parts.isEmpty then []
    else "\n  " ++ c.path ++ " [command]\n\nAvailable Commands:" ++ c.partTable
  itself ++ withParts

/-- The flags of a command. The program shows those of all commands as its own. -/
def flagLines (c : Command) : Text :=
  if c = .root then "\n\nFlags:\n" ++ Flag.table c.flags
  else "\n\nFlags:\n" ++ Flag.table c.ownFlags ++ "\n\nGlobal Flags:\n" ++ Flag.table globalFlags

def partsHint (c : Command) : Text :=
  if c.parts.isEmpty then []
  else "\n\nUse \"" ++ c.path ++ " [command] --help\" for more information about a command."

def usage (c : Command) : Text :=
  "Usage:" ++ c.callLines ++ c.flagLines ++ c.partsHint ++ "\n"

def helpText (c : Command) : Text := c.fullPurpose ++ "\n\n" ++ c.usage

end Command

end DeclCheck.Cli
