import DeclCheck.Text.Utf8
import DeclCheck.Text.Width

/-!
# The version

What is known about a build: its version, and perhaps its commit and its date.
-/
namespace DeclCheck

structure Build where
  version : Text := "0.1.0-dev"
  commit : Text := []
  date : Text := []
  deriving Repr, Inhabited

namespace Build

def orUnknown (t : Text) : Text := if t.isEmpty then "unknown" else t

/-- The build without blanks at the ends of its texts; one without a version is in development. -/
def trimmed (b : Build) : Build :=
  let version := b.version.trim
  { version := if version.isEmpty then "dev" else version
    commit := b.commit.trim
    date := b.date.trim }

/-- The version with its three numbers in colours. What follows the third number stays plain, and
so does a version of another form. -/
def colored (b : Build) (color : Bool) : Text :=
  let version := b.version.trim
  match Text.splitOn 46 version with
  | major :: minor :: first :: more =>
    let last := Text.join "." (first :: more)
    let isPlain (c : UInt8) : Bool := c != 45 && c != 43
    Style.boldYellow.apply color major ++ "." ++ Style.boldGreen.apply color minor ++ "." ++
      Style.boldBlue.apply color (last.takeWhile isPlain) ++ last.dropWhile isPlain
  | _ => version

/-- The version for readers, with the commit and the date where asked for. -/
def pretty (b : Build) (color hash date : Bool) : Text :=
  let info := b.trimmed
  "decaf " ++ b.colored color ++ "\n" ++
    (if hash then Text.ofString "commit: " ++ orUnknown info.commit ++ "\n" else []) ++
    (if date then Text.ofString "built:  " ++ orUnknown info.date ++ "\n" else [])

end Build

end DeclCheck
