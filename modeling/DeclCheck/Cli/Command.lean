import DeclCheck.Cli.Flag
import DeclCheck.Text.Utf8

/-!
# Commands

The commands with their flags, and how the command is found in a command line. Flags may stand in
front of its name. One that takes a value takes the next argument along, and so does a flag that
is not known. Where no command has a name, those with a name close to it are suggested.
-/
namespace DeclCheck

/-! ## Distance of texts

The least number of bytes to insert, to remove or to replace that makes one text of another. It is
computed row by row: a row holds the distances of a part of the first text from the front to all
such parts of the second. -/

namespace Text

/-- The row that a further byte of the first text gives, without its first distance, from that
distance and the row before. -/
def distanceRow (c : UInt8) : Text → Nat → List Nat → List Nat
  | b :: t, left, diagonal :: above :: row =>
    let here := if b = c then diagonal else min (min left above) diagonal + 1
    here :: distanceRow c t here (above :: row)
  | _, _, _ => []

/-- The row that a further byte of the first text gives. -/
def nextDistances (t : Text) (row : List Nat) (c : UInt8) : List Nat :=
  match row with
  | [] => []
  | d :: _ => (d + 1) :: distanceRow c t (d + 1) row

def distance (s t : Text) : Nat :=
  (s.foldl (nextDistances t) (List.range (t.length + 1))).getLastD 0

end Text

namespace Cli

/-! ## Finding a command -/

/-- The commands. `root` is the program without the name of a command. -/
inductive Command where
  | root
  | check
  | scopes
  | version
  | help
  | completion
  deriving DecidableEq, Repr, Inhabited

/-! ## Flags -/

def globalFlags : List Flag :=
  [{ name := "color", kind := .text, shownDefault := "auto",
     purpose := "colorize output (auto|on|off)" },
   { name := "quiet", kind := .truth, purpose := "suppress non-essential output" },
   { name := "timings", kind := .truth, purpose := "show timing information" },
   { name := "max-diagnostics", kind := .number, shownDefault := "100",
     purpose := "maximum number of diagnostics to show" },
   { name := "trace", kind := .text, purpose := "write trace events to file (- for stderr)" },
   { name := "trace-level", kind := .text, shownDefault := "off",
     purpose := "trace level (off|error|phase|detail|debug)" },
   { name := "trace-mode", kind := .text, shownDefault := "stream",
     purpose := "trace storage (stream|ring|both)" },
   { name := "trace-ring-size", kind := .number, shownDefault := "4096",
     purpose := "events kept by the ring tracer" },
   { name := "trace-heartbeat", kind := .duration,
     purpose := "emit heartbeat events at this interval (0 disables)" },
   { name := "cpu-profile", kind := .text, purpose := "write CPU profile to file" },
   { name := "mem-profile", kind := .text, purpose := "write heap profile to file on exit" },
   { name := "runtime-trace", kind := .text, purpose := "write Go runtime trace to file" }]

def checkFlags : List Flag :=
  [{ name := "format", kind := .text, shownDefault := "pretty",
     purpose := "output format (pretty|json|short)" },
   { name := "jobs", kind := .number,
     purpose := "max parallel workers for directory processing (0=auto)" },
   { name := "dedup", kind := .truth,
     purpose := "drop repeated diagnostics with the same code, location and message" },
   { name := "with-notes", kind := .truth, purpose := "include diagnostic notes in output" },
   { name := "with-scopes", kind := .truth,
     purpose := "include resolved scope tables in JSON output" },
   { name := "ui", kind := .text, shownDefault := "auto",
     purpose := "progress UI (auto|on|off)" },
   { name := "disk-cache", kind := .truth,
     purpose := "reuse diagnostics of unchanged manifests across runs" },
   { name := "fullpath", kind := .truth, purpose := "emit absolute file paths in output" }]

def scopesFlags : List Flag :=
  [{ name := "inherited", kind := .truth, shownDefault := "true",
     purpose := "include members received from ancestor classes" },
   { name := "json", kind := .truth, purpose := "print scopes as JSON" }]

def versionFlags : List Flag :=
  [{ name := "hash", kind := .truth, purpose := "include git commit hash" },
   { name := "date", kind := .truth, purpose := "include build timestamp" },
   { name := "full", kind := .truth, purpose := "show every recorded bit of build metadata" },
   { name := "format", kind := .text, shownDefault := "pretty",
     purpose := "output format (pretty|json)" }]

namespace Command

def name : Command → Text
  | root => "decaf"
  | check => "check"
  | scopes => "scopes"
  | version => "version"
  | help => "help"
  | completion => "completion"

def helpFlag (c : Command) : Flag :=
  { name := "help", letter := some 104, kind := .truth, purpose := "help for " ++ c.name }

def versionFlag : Flag :=
  { name := "version", letter := some 118, kind := .truth, purpose := "version for decaf" }

def ownFlags : Command → List Flag
  | root => [versionFlag, helpFlag .root]
  | check => checkFlags ++ [helpFlag .check]
  | scopes => scopesFlags ++ [helpFlag .scopes]
  | version => versionFlags ++ [helpFlag .version]
  | c => [c.helpFlag]

def flags (c : Command) : List Flag := c.ownFlags ++ globalFlags

def all : List Command := [check, scopes, version, help, completion]

def isRunnable : Command → Bool
  | root | completion => false
  | _ => true

def argCount? : Command → Option Nat
  | check | scopes => some 1
  | _ => none

/-! ## Finding the command -/

/-- Does the argument take the next one along? -/
def takesNext (arg : Text) : Bool :=
  let isTruth (f : Flag) : Bool := f.kind = .truth
  if arg.contains 61 then false
  else if arg.startsWith endOfFlags then
    !globalFlags.any fun f => isTruth f && f.name == arg.drop 2
  else
    arg.head? == some 45 && arg.length = 2 &&
      !globalFlags.any fun f => isTruth f && f.letter == arg[1]?

/-- The arguments that are neither flags nor their values. A flag that takes the last argument
along ends them. -/
def words : List Text → List Text
  | [] => []
  | arg :: rest =>
    if arg == endOfFlags then []
    else if takesNext arg then
      match rest with
      | [] => []
      | _ :: rest => if rest.isEmpty then [] else words rest
    else if arg.isEmpty || arg.head? == some 45 then words rest
    else arg :: words rest

def withoutWord (word : Text) : List Text → List Text
  | [] => []
  | arg :: rest =>
    if arg == endOfFlags then arg :: rest
    else if takesNext arg then
      match rest with
      | [] => [arg]
      | value :: rest => arg :: value :: withoutWord word rest
    else if arg == word then rest
    else arg :: withoutWord word rest

inductive Found where
  | command (c : Command) (args : List Text)
  | unknown (word : Text)
  deriving Repr

/-- Finds the command of a command line: its first word is the name. -/
def find (args : List Text) : Found :=
  match words args with
  | [] => .command root args
  | word :: _ =>
    match all.find? (·.name == word) with
    | some c => .command c (withoutWord word args)
    | none => .unknown word

/-- How far a word may be from a name that is suggested for it. -/
def maxDistance : Nat := 2

/-- The names that may have been meant by a word: those that are near it or start with it. -/
def suggestions (word : Text) : List Text :=
  let typed := word.lowerKeyword
  ([check, scopes, version, completion].map name).filter fun n =>
    Text.distance typed n ≤ maxDistance || n.startsWith typed

def unknownMessage (word : Text) : Text :=
  let meant := suggestions word
  "unknown command " ++ word.quote ++ " for " ++ root.name.quote ++
    (if meant.isEmpty then []
      else Text.ofString "\n\nDid you mean this?\n" ++
        meant.flatMap fun n => [Text.tab] ++ n ++ [Text.newline])

end Command

end Cli

end DeclCheck
