import DeclCheck.Source.Path

/-!
# Files

What the program asks of a file system, why that can fail, and the few operations that are built
from it: directories are made with all above them, and a file is written as a whole.
-/
namespace DeclCheck

inductive FileFault where
  | notFound
  | notDirectory
  | isDirectory
  | alreadyThere
  | notEmpty
  | nameTooLong
  | invalidArgument
  | other (text : Text)
  deriving DecidableEq, Repr, Inhabited

def FileFault.message : FileFault → Text
  | notFound => "no such file or directory"
  | notDirectory => "not a directory"
  | isDirectory => "is a directory"
  | alreadyThere => "file exists"
  | notEmpty => "directory not empty"
  | nameTooLong => "file name too long"
  | invalidArgument => "invalid argument"
  | other text => text

structure FileError where
  operation : Text
  path : Text
  fault : FileFault
  deriving DecidableEq, Repr, Inhabited

def FileError.message (e : FileError) : Text :=
  e.operation ++ " " ++ e.path ++ ": " ++ e.fault.message

inductive FileKind where
  | directory
  | regular
  deriving DecidableEq, Repr, Inhabited

/-- What is asked of a file system. Relative paths start in the working directory. -/
class MonadFiles (m : Type → Type) where
  /-- The time in nanoseconds since 1970. -/
  now : m Int
  /-- What a path leads to. -/
  kindOf (path : Text) : m (Except FileFault FileKind)
  /-- The bytes of a file. -/
  readBytes (path : Text) : m (Except FileFault Text)
  /-- The names in a directory, in order. -/
  listDir (path : Text) : m (Except FileFault (List (Text × FileKind)))
  /-- Makes a directory in one that is there. -/
  makeDir (path : Text) : m (Except FileFault Unit)
  /-- Writes a file as a whole; it is made if it is not there. -/
  writeBytes (path bytes : Text) : m (Except FileFault Unit)
  /-- Moves a file or a directory; a file that is in the way is gone. -/
  move (old new : Text) : m (Except FileFault Unit)
  /-- Removes a file, or a directory with all below it. What is not there needs no removal. -/
  removeAll (path : Text) : m (Except FileFault Unit)

namespace Files

variable {m : Type → Type} [Monad m] [MonadFiles m]

def named {α : Type} (operation path : Text) : Except FileFault α → Except FileError α
  | .ok a => .ok a
  | .error fault => .error { operation, path, fault }

def stat (path : Text) : m (Except FileError FileKind) := do
  return named "stat" path (← MonadFiles.kindOf path)

def isDirectory (path : Text) : m Bool := do
  match ← MonadFiles.kindOf path with
  | .ok .directory => return true
  | _ => return false

/-- The bytes of a file. A directory can be opened, but not read. -/
def read (path : Text) : m (Except FileError Text) := do
  match ← MonadFiles.readBytes path with
  | .ok bytes => return .ok bytes
  | .error .isDirectory => return .error { operation := "read", path, fault := .isDirectory }
  | .error fault => return .error { operation := "open", path, fault }

def write (path bytes : Text) : m (Except FileError Unit) := do
  return named "open" path (← MonadFiles.writeBytes path bytes)

/-- What stands above the last part of a path, if there is something to make. -/
def above? (path : Text) : Option Text :=
  let whole := (path.reverse.dropWhile (· == Path.slash)).dropWhile (· != Path.slash)
  if 1 < whole.length then some (whole.drop 1).reverse else none

def makeOne (path : Text) : m (Except FileError Unit) := do
  match ← MonadFiles.makeDir path with
  | .ok () => return .ok ()
  | .error fault =>
    if ← isDirectory path then return .ok ()
    return .error { operation := "mkdir", path, fault }

/-- Makes a directory and up to `depth` of those above it. -/
def makeDirsWithin : Nat → Text → m (Except FileError Unit)
  | 0, path => makeOne path
  | depth + 1, path => do
    match ← MonadFiles.kindOf path with
    | .ok .directory => return .ok ()
    | .ok .regular => return .error { operation := "mkdir", path, fault := .notDirectory }
    | .error _ =>
      match above? path with
      | none => makeOne path
      | some parent =>
        match ← makeDirsWithin depth parent with
        | .error e => return .error e
        | .ok () => makeOne path

def makeDirs (path : Text) : m (Except FileError Unit) := makeDirsWithin path.length path

/-- Moves a file or a directory. A directory is never replaced. -/
def move (old new : Text) : m (Except FileError Unit) := do
  let path := old ++ " " ++ new
  if ← isDirectory new then
    return .error { operation := "rename", path, fault := .alreadyThere }
  return named "rename" path (← MonadFiles.move old new)

/-- Removes a file, or a directory with all below it. A path that ends in a point is refused. -/
def removeAll (path : Text) : m (Except FileError Unit) := do
  if path.isEmpty then return .ok ()
  if path == Path.here || path.endsWith (Path.slash :: Path.here) then
    return .error { operation := "RemoveAll", path, fault := .invalidArgument }
  return named "unlinkat" path (← MonadFiles.removeAll path)

/-- The files at or below a path, in the order of the walk, up to `depth` directories down. What
is not there has none. -/
def filesWithin : Nat → Text → m (List Text)
  | 0, _ => return []
  | depth + 1, path => do
    match ← MonadFiles.kindOf path with
    | .error _ => return []
    | .ok .regular => return [path]
    | .ok .directory =>
      match ← MonadFiles.listDir path with
      | .error _ => return []
      | .ok names =>
        let found ← names.mapM fun (name, _) => filesWithin depth (Path.join [path, name])
        return found.flatten

/-- No directory lies deeper: each takes two bytes of a path. -/
def maxDepth : Nat := 2048

/-- The files at or below a path in the order of their paths. -/
def allFiles (path : Text) : m (List Text) := do
  return (← filesWithin maxDepth path).mergeSort fun s t => Text.compare s t != .gt

end Files

end DeclCheck
