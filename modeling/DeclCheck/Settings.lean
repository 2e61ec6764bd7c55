import DeclCheck.Text.Quoted
import DeclCheck.Text.Utf8

/-!
# Choices of the user

How diagnostics are written, when colours are used and when progress is shown.
-/
namespace DeclCheck

inductive OutputFormat where
  | pretty
  | json
  | short
  deriving DecidableEq, Repr, Inhabited

namespace OutputFormat

def named : List (Text × OutputFormat) := [("pretty", pretty), ("json", json), ("short", short)]

def label : OutputFormat → Text
  | pretty => "pretty"
  | json => "json"
  | short => "short"

/-- The format with a name, letter case and blanks around it aside. -/
def parse? (t : Text) : Option OutputFormat :=
  (named.find? fun (name, _) => t.lowerKeyword.trim == name).map (·.2)

def invalidMessage (t : Text) : Text :=
  "unknown format " ++ t.quote ++ " (expected pretty|json|short)"

end OutputFormat

inductive ColorMode where
  | auto
  | on
  | off
  deriving DecidableEq, Repr, Inhabited

namespace ColorMode

def named : List (Text × ColorMode) := [("auto", auto), ("on", on), ("off", off)]

/-- The mode with a name, which has to be spelled exactly. -/
def parse? (t : Text) : Option ColorMode := (named.find? (·.1 == t)).map (·.2)

def invalidMessage (t : Text) : Text :=
  "invalid --color value " ++ t.quote ++ " (expected auto|on|off)"

/-- Are colours used? Unless they are asked for, they need a terminal. -/
def isUsed (m : ColorMode) (terminal : Bool) : Bool :=
  match m with
  | on => true
  | off => false
  | auto => terminal

end ColorMode

inductive ProgressMode where
  | auto
  | on
  | off
  deriving DecidableEq, Repr, Inhabited

namespace ProgressMode

/-- The modes by name; without a name it is decided by the terminal. -/
def named : List (Text × ProgressMode) := [([], auto), ("auto", auto), ("on", on), ("off", off)]

def label : ProgressMode → Text
  | auto => "auto"
  | on => "on"
  | off => "off"

/-- The mode with a name, letter case and blanks around it aside. -/
def parse? (t : Text) : Option ProgressMode :=
  (named.find? fun (name, _) => t.lowerKeyword.trim == name).map (·.2)

def invalidMessage (t : Text) : Text :=
  "invalid --ui value " ++ t.quote ++ " (expected auto|on|off)"

/-- Is progress shown? It goes with pretty output for a directory that has files, and unless it is
asked for it needs a terminal. -/
def isShown (m : ProgressMode) (format : OutputFormat) (quiet isDir : Bool) (files : Int)
    (terminal : Bool) : Bool :=
  if !isDir || files = 0 || quiet || format != .pretty then false
  else
    match m with
    | on => true
    | off => false
    | auto => terminal

end ProgressMode

end DeclCheck
