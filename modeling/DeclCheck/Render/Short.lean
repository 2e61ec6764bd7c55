import DeclCheck.Diagnostic.Bag
import DeclCheck.Source.FileSet
import DeclCheck.Text.Utf8

/-!
# One line a diagnostic

Diagnostics sorted by path, line, column, code and message, each with its notes behind it. What
points into an unknown file is left out.
-/
namespace DeclCheck.Short

structure Line where
  severity : Text
  code : Text
  path : Text
  line : Nat
  column : Nat
  message : Text
  deriving DecidableEq, Repr, Inhabited

def flatten (t : Text) : Text :=
  Text.trim ((Lines.dropReturns t).map fun b =>
    if b = Text.carriageReturn || b = Text.newline then Text.space else b)

/-- The text without leading `./`. -/
def dropDots : Text → Text
  | 46 :: 47 :: t => dropDots t
  | t => t

/-- The path of a file as it is shown: relative to the base directory, without leading dots. -/
def shownPath (fs : FileSet) (file : SourceFile) : Text :=
  dropDots (fs.showPath file .relative fs.baseDir)

def lineAt? (fs : FileSet) (severity code : Text) (span : Span) (message : Text) : Option Line := do
  let file ← fs.get? span.file
  let (start, _) ← fs.resolve? span
  return { severity, code, path := shownPath fs file, line := start.line.toNat,
           column := start.col.toNat, message := flatten message }

def noteLabel : Text := "note"

def headLine? (fs : FileSet) (d : Diagnostic) : Option Line :=
  lineAt? fs d.severity.label d.code.id d.primary d.message

def noteLines (fs : FileSet) (d : Diagnostic) : List Line :=
  d.notes.filterMap fun n => lineAt? fs noteLabel d.code.id n.span n.message

/-- The lines of a diagnostic and of its notes; there are none if its file is unknown. -/
def linesOf (fs : FileSet) (withNotes : Bool) (d : Diagnostic) : List Line :=
  match headLine? fs d with
  | none => []
  | some head => head :: if withNotes then noteLines fs d else []

/-- A diagnostic's line and those of its notes. -/
structure Group where
  head : Line
  notes : List Line
  deriving DecidableEq, Repr, Inhabited

/-- Adds a line to groups, the last of them first: a note goes to the last group, if there is one. -/
def addLine (groups : List Group) (l : Line) : List Group :=
  match groups with
  | [] => [{ head := l, notes := [] }]
  | g :: gs =>
    if l.severity = noteLabel then { g with notes := g.notes ++ [l] } :: gs
    else { head := l, notes := [] } :: g :: gs

def groups (ls : List Line) : List Group := (ls.foldl addLine []).reverse

def order (a b : Line) : Ordering :=
  Bag.firstDifference
    [Text.compare a.path b.path, compare a.line b.line, compare a.column b.column,
     Text.compare a.code b.code, Text.compare a.message b.message]

/-- Groups in the order of their first lines; those that it does not tell apart stay as they are. -/
def sortGroups (gs : List Group) : List Group := gs.mergeSort fun a b => order a.head b.head != .gt

def Line.render (l : Line) : Text :=
  l.severity ++ " " ++ l.code ++ " " ++ l.path ++ ":" ++ Text.ofNat l.line ++ ":" ++
    Text.ofNat l.column ++ " " ++ l.message

def render (fs : FileSet) (withNotes : Bool) (ds : List Diagnostic) : Text :=
  let sorted := sortGroups (groups (ds.flatMap (linesOf fs withNotes)))
  Text.join [Text.newline] ((sorted.flatMap fun g => g.head :: g.notes).map Line.render)

end DeclCheck.Short
