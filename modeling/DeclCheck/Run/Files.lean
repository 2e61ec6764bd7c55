import DeclCheck.Run.File
import DeclCheck.Text.Utf8

/-!
# Checking many files

The manifests of a directory are found by the ends of their names, and files are checked in
order. Once a file cannot be read, the rest are still looked at, but none of their declarations is
checked.
-/
namespace DeclCheck.Run

variable {m : Type → Type} [Monad m] [MonadFiles m]

def isManifest (path : Text) : Bool :=
  let ext := (Path.ext path).lowerKeyword
  ext == Text.ofString ".yaml" || ext == Text.ofString ".yml"

/-- Are the files below a directory of this name left out? -/
def isHidden (name : Text) : Bool := name.head? == some 46

/-- The manifests at or below a path, up to `depth` directories down. -/
def manifestsWithin : Nat → Text → FileKind → m (Except FileError (List Text))
  | 0, _, _ => return .ok []
  | _ + 1, path, .regular => return .ok (if isManifest path then [path] else [])
  | depth + 1, path, .directory => do
    match ← MonadFiles.listDir path with
    | .error fault => return .error { operation := "open", path, fault }
    | .ok names =>
      let visible := names.filter fun (name, kind) => kind = .regular || !isHidden name
      visible.foldlM (fun found (name, kind) => do
        match found with
        | .error e => return .error e
        | .ok found =>
          return (← manifestsWithin depth (Path.join [path, name]) kind).map (found ++ ·))
        (.ok [])

/-- The manifests at or below a path, in the order of their paths. -/
def manifests (path : Text) : m (Except Failure (List Text)) := do
  match ← MonadFiles.kindOf path with
  | .error fault => return .error (.walk path { operation := "lstat", path, fault })
  | .ok kind =>
    match ← manifestsWithin Files.maxDepth path kind with
    | .error e => return .error (.walk path e)
    | .ok found => return .ok (found.mergeSort fun s t => Text.compare s t != .gt)

/-- Checks files in order. After a failure, which is the first that counts, no declaration of the
others is checked. -/
def checkInOrder (cwd : Text) (o : Options) :
    Option Failure → List Text → RunM m (Except Failure (List FileResult))
  | none, [] => return .ok []
  | some f, [] => return .error f
  | failed, path :: paths => do
    let reached := if failed.isSome then some 0 else none
    match ← checkFile cwd o reached path with
    | .error f => checkInOrder cwd o (some (failed.getD f)) paths
    | .ok r => return (← checkInOrder cwd o failed paths).map (r :: ·)

/-- The options with a base: without one, it is the directory that all files lie in or below. -/
def Options.withBase (o : Options) (paths : List Text) : Options :=
  if o.base.isEmpty && !paths.isEmpty then { o with base := Path.commonDir paths } else o

def checkFiles (cwd : Text) (o : Options) (paths : List Text) :
    RunM m (Except Failure (List FileResult)) := do
  let span ← beginSpan .driver "check_files"
  let around ← enterSpan span
  let o := o.withBase paths
  (Progress.queuedEvents (Progress.displayFiles cwd o.base paths)).forM event
  let results ← checkInOrder cwd o none paths
  tell (.ends span ("files=" ++ Text.ofNat paths.length))
  let _ ← enterSpan around
  return results

def checkDir (cwd : Text) (o : Options) (dir : Text) :
    RunM m (Except Failure (List FileResult)) := do
  match ← files (manifests dir) with
  | .error f => return .error f
  | .ok paths => checkFiles cwd o paths

end DeclCheck.Run
