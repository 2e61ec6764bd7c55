import DeclCheck.Files

/-!
# Disks

A disk is a value: the directories and files below the root, and the working directory. A path is
walked part by part, and each part but the last has to lead to a directory.
-/
namespace DeclCheck

inductive DiskNode where
  | directory
  | file (content : Text)
  deriving DecidableEq, Repr, Inhabited

def DiskNode.kind : DiskNode → FileKind
  | directory => .directory
  | file _ => .regular

/-- What stands below the root, by the parts of its path, and the working directory. -/
structure Disk where
  nodes : List (List Text × DiskNode) := []
  cwd : List Text := []
  deriving Repr, Inhabited

namespace Disk

/-- What stands at a place. The root is a directory. -/
def node? (d : Disk) (place : List Text) : Option DiskNode :=
  if place.isEmpty then some .directory else (d.nodes.find? (·.1 == place)).map (·.2)

def put (d : Disk) (place : List Text) (n : DiskNode) : Disk :=
  { d with nodes := d.nodes.filter (·.1 != place) ++ [(place, n)] }

def clear (d : Disk) (place : List Text) : Disk :=
  { d with nodes := d.nodes.filter fun n => !place.isPrefixOf n.1 }

def maxName : Nat := 255

/-- Paths are shorter than this. -/
def maxPath : Nat := 4096

def enter (d : Disk) (place : List Text) (part : Text) : Except FileFault (List Text) :=
  match d.node? place with
  | none => .error .notFound
  | some (.file _) => .error .notDirectory
  | some .directory =>
    if part.isEmpty || part == Path.here then .ok place
    else if part == Path.up then .ok place.dropLast
    else if maxName < part.length then .error .nameTooLong
    else .ok (place ++ [part])

/-- The place that a path leads to. There may be nothing at it, but what is above it is there. -/
def locate (d : Disk) (path : Text) : Except FileFault (List Text) :=
  if path.contains 0 then .error .invalidArgument
  else if path.isEmpty then .error .notFound
  else if maxPath ≤ path.length then .error .nameTooLong
  else
    (Text.splitOn Path.slash path).foldlM d.enter (if Path.isAbsolute path then [] else d.cwd)

def lookup (d : Disk) (path : Text) : Except FileFault (List Text × DiskNode) := do
  let place ← d.locate path
  match d.node? place with
  | some n => return (place, n)
  | none => .error .notFound

def readBytes (d : Disk) (path : Text) : Except FileFault Text := do
  match ← d.lookup path with
  | (_, .file content) => return content
  | (_, .directory) => .error .isDirectory

def listDir (d : Disk) (path : Text) : Except FileFault (List (Text × FileKind)) := do
  match ← d.lookup path with
  | (_, .file _) => .error .notDirectory
  | (place, .directory) =>
    let below := d.nodes.filterMap fun (p, n) =>
      match p.reverse with
      | name :: above => if above.reverse == place then some (name, n.kind) else none
      | [] => none
    return below.mergeSort fun a b => Text.compare a.1 b.1 != .gt

/-- The disk with a new directory. Slashes at the end of its path do not count. -/
def makeDir (d : Disk) (path : Text) : Except FileFault Disk := do
  let bare := (path.reverse.dropWhile (· == Path.slash)).reverse
  let place ← d.locate (if bare.isEmpty then path else bare)
  match d.node? place with
  | some _ => .error .alreadyThere
  | none => return d.put place .directory

def writeBytes (d : Disk) (path bytes : Text) : Except FileFault Disk := do
  let place ← d.locate path
  match d.node? place with
  | some .directory => .error .isDirectory
  | _ => return d.put place (.file bytes)

/-- The disk with what stood at one path at another. A directory does not move below itself. -/
def move (d : Disk) (old new : Text) : Except FileFault Disk := do
  let (source, n) ← d.lookup old
  let target ← d.locate new
  if source == target then return d
  if source.isPrefixOf target then .error .invalidArgument
  match n, d.node? target with
  | .directory, some (.file _) => .error .notDirectory
  | .file _, some .directory => .error .isDirectory
  | _, _ =>
    let moved := d.nodes.filterMap fun (p, n) =>
      if source.isPrefixOf p then some (target ++ p.drop source.length, n) else none
    let rest := (d.clear source).clear target
    return { rest with nodes := rest.nodes ++ moved }

/-- The disk without what stands at a path. What is not there needs no removal. -/
def removeAll (d : Disk) (path : Text) : Except FileFault Disk :=
  match d.locate path with
  | .ok place => .ok (d.clear place)
  | .error .notFound => .ok d
  | .error fault => .error fault

/-- A change of the disk that may fail and then leaves it as it is. -/
def change (f : Disk → Except FileFault Disk) : StateM Disk (Except FileFault Unit) := fun d =>
  match f d with
  | .ok d => (.ok (), d)
  | .error fault => (.error fault, d)

/-- On a disk that is a value, time stands still. -/
instance : MonadFiles (StateM Disk) where
  now := pure 0
  kindOf path := do return ((← get).lookup path).map (·.2.kind)
  readBytes path := do return (← get).readBytes path
  listDir path := do return (← get).listDir path
  makeDir path := change (·.makeDir path)
  writeBytes path bytes := change (·.writeBytes path bytes)
  move old new := change (·.move old new)
  removeAll path := change (·.removeAll path)

end Disk

end DeclCheck
