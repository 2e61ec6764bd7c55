import DeclCheck.Cli
import Std.Time.DateTime

/-!
# The program

The command line with the files of the system. The exit status is one if the command failed.
-/
namespace DeclCheck

def FileFault.ofSystem : IO.Error → FileFault
  | .noFileOrDirectory .. => .notFound
  | .alreadyExists .. => .alreadyThere
  | .inappropriateType _ _ details => .other details
  | .permissionDenied _ _ details => .other details
  | .unsatisfiedConstraints _ details => .other details
  | .invalidArgument .. => .invalidArgument
  | e => .other e.toString

def attempt {α : Type} (act : IO α) : IO (Except FileFault α) := do
  try return .ok (← act)
  catch e => return .error (.ofSystem e)

instance : MonadFiles IO where
  now := do return (← Std.Time.Timestamp.now).toNanosecondsSinceUnixEpoch.val
  kindOf path := attempt do
    let p := (← IO.currentDir) / path.toStringLossy
    return if (← p.metadata).type == .dir then .directory else .regular
  readBytes path := do
    let p := (← IO.currentDir) / path.toStringLossy
    if ← p.isDir then return .error .isDirectory
    attempt do return (← IO.FS.readBinFile p).toList
  listDir path := attempt do
    let p := (← IO.currentDir) / path.toStringLossy
    let found ← (← p.readDir).toList.mapM fun e => do
      return (Text.ofString e.fileName, if ← e.path.isDir then FileKind.directory else .regular)
    return found.mergeSort fun a b => Text.compare a.1 b.1 != .gt
  makeDir path := attempt do IO.FS.createDir ((← IO.currentDir) / path.toStringLossy)
  writeBytes path bytes := attempt do
    IO.FS.writeBinFile ((← IO.currentDir) / path.toStringLossy) ⟨bytes.toArray⟩
  move old new := attempt do
    let cwd ← IO.currentDir
    IO.FS.rename (cwd / old.toStringLossy) (cwd / new.toStringLossy)
  removeAll path := attempt do
    let p := (← IO.currentDir) / path.toStringLossy
    if ← p.isDir then IO.FS.removeDirAll p
    else if ← p.pathExists then IO.FS.removeFile p

/-- The value of a variable of the environment; empty if it is not set. -/
def environment (name : String) : IO Text := do
  return Text.ofString ((← IO.getEnv name).getD "")

end DeclCheck

open DeclCheck in
def main (args : List String) : IO UInt32 := do
  let stdout ← IO.getStdout
  let stderr ← IO.getStderr
  let terminal ← stdout.isTty
  let around : Cli.Surroundings :=
    { cwd := Text.ofString (← IO.currentDir).toString, terminal
      cacheHome := ← environment "XDG_CACHE_HOME", home := ← environment "HOME" }
  let args := args.map Text.ofString
  let (_, outcome) ← Cli.run around { color := terminal } args
  stdout.write ⟨outcome.stdout.toArray⟩
  stderr.write ⟨outcome.stderr.toArray⟩
  match outcome.error with
  | none => return 0
  | some e =>
    stderr.write ⟨(Cli.complaint args e).toArray⟩
    return 1
