import DeclCheck.Source.Span
import DeclCheck.Source.Path
import DeclCheck.Source.Lines

/-!
# File sets

A file set numbers the contents that were added to it, from zero. A path may be added again; its
last content is then the latest, and the earlier ones keep their numbers.
-/
namespace DeclCheck

/-- How a file came into the set, one bit each. -/
abbrev FileFlags := UInt8

/-- The content was given, not read. -/
def FileFlags.virtual : FileFlags := 1

/-- A byte order mark was dropped. -/
def FileFlags.hadMark : FileFlags := 2

/-- Carriage returns before line feeds were dropped. -/
def FileFlags.hadReturns : FileFlags := 4

/-- A content with its number, its clean path and the offsets of its line feeds. -/
structure SourceFile where
  id : FileId := 0
  path : Text := []
  content : Text := []
  breaks : List UInt32 := []
  flags : FileFlags := 0
  deriving Repr, Inhabited

namespace SourceFile

def size (f : SourceFile) : UInt32 := f.content.length.toUInt32

def position (f : SourceFile) (off : UInt32) : LineCol := Lines.position f.breaks off

/-- The offset of a position, moved to the nearest one in its line or in the file. -/
def offset (f : SourceFile) (pos : LineCol) : UInt32 := Lines.offset f.breaks f.size pos

def line (f : SourceFile) (n : UInt32) : Text := Lines.line f.content f.breaks n

end SourceFile

inductive PathStyle where
  /-- As it is if it is short or relative, else its last part. -/
  | auto
  | absolute
  | relative
  | basename
  /-- As it is. -/
  | stored
  deriving DecidableEq, Repr

/-- The files in the order of their numbers, the directory that paths are shown relative to, and
the directory that relative paths are taken from. An empty base stands for the latter. -/
structure FileSet where
  files : Array SourceFile := #[]
  base : Text := []
  cwd : Text := "/"
  deriving Repr, Inhabited

namespace FileSet

def baseDir (fs : FileSet) : Text := if fs.base.isEmpty then fs.cwd else fs.base

def size (fs : FileSet) : Nat := fs.files.size

def get? (fs : FileSet) (id : FileId) : Option SourceFile := fs.files[id]?

def add (fs : FileSet) (path content : Text) (flags : FileFlags) : FileSet × FileId :=
  let id := fs.files.size
  let file : SourceFile :=
    { id, path := Path.clean path, content, breaks := Lines.breaks content, flags }
  ({ fs with files := fs.files.push file }, id)

def addVirtual (fs : FileSet) (path content : Text) : FileSet × FileId :=
  fs.add path content FileFlags.virtual

/-- Adds the bytes that were read from a file, without a byte order mark and without carriage
returns before line feeds. -/
def addRead (fs : FileSet) (path bytes : Text) : FileSet × FileId :=
  let marked := bytes.startsWith Lines.byteOrderMark
  let body := bytes.dropLeading Lines.byteOrderMark
  let flags := (if marked then FileFlags.hadMark else 0) |||
    (if Lines.hasReturns body then FileFlags.hadReturns else 0)
  fs.add path (Lines.dropReturns body) flags

/-- The number of the content that was last added under a path. -/
def latest? (fs : FileSet) (path : Text) : Option FileId :=
  ((fs.files.toList.reverse).find? (·.path == Path.clean path)).map (·.id)

/-- The positions of the ends of a span, if its file is known. -/
def resolve? (fs : FileSet) (s : Span) : Option (LineCol × LineCol) :=
  (fs.get? s.file).map fun f => (f.position s.start, f.position s.stop)

/-- The path of a file in a given style, relative ones seen from `base`. -/
def showPath (fs : FileSet) (f : SourceFile) (style : PathStyle) (base : Text) : Text :=
  match style with
  | .absolute => Path.clean (Path.absolute fs.cwd f.path)
  | .relative => Path.relativeTo fs.cwd (if base.isEmpty then fs.cwd else base) f.path
  | .basename => Path.base f.path
  | .auto =>
    if f.path.length < 40 || !Path.isAbsolute f.path then f.path else Path.base f.path
  | .stored => f.path

end FileSet

end DeclCheck
