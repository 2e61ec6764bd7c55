import DeclCheck.Diagnostic.Bag
import DeclCheck.Source.FileSet
import DeclCheck.Text.Width

/-!
# Diagnostics with snippets

Each diagnostic with the line it points into, the lines above it and a marker below the columns it
covers, then its notes in the same manner.
-/
namespace DeclCheck

/-- The path style with a number; numbers above three show the path as it is stored. -/
def PathStyle.ofNumber (n : UInt8) : PathStyle :=
  match n.toNat with
  | 0 => .auto
  | 1 => .absolute
  | 2 => .relative
  | 3 => .basename
  | _ => .stored

def FileSet.pathOf (fs : FileSet) (id : FileId) (style : PathStyle) : Text :=
  match fs.get? id with
  | none => "<unknown>"
  | some f => fs.showPath f style fs.baseDir

namespace Pretty

structure Options where
  color : Bool := false
  /-- How many lines are shown above the one that is pointed into. -/
  context : Int := 0
  notes : Bool := false
  paths : PathStyle := .auto

/-- Tabs are shown as four spaces. -/
def expandTabs (t : Text) : Text := Text.replaceByte Text.tab (Text.spaces 4) t

def severityStyle (s : Severity) : Style :=
  if s = .error then .boldRed else if s = .warning then .boldYellow else .boldCyan

/-- The path and the position of a span; only the path if the file is unknown. -/
def location (fs : FileSet) (span : Span) (paths : PathStyle) : Text :=
  let path := fs.pathOf span.file paths
  match fs.resolve? span with
  | none => path
  | some (start, _) =>
    path ++ ":" ++ Text.ofNat start.line.toNat ++ ":" ++ Text.ofNat start.col.toNat

/-- The index of a column in a line, at most its length. -/
def columnIndex (column : UInt32) (line : Text) : Nat := min (column.toNat - 1) line.length

def sourceLine (color : Bool) (gutter : Nat) (file : SourceFile) (n : Nat) : Text :=
  Style.blue.apply color (Text.padLeft gutter (Text.ofNat n) ++ " |") ++ " " ++
    expandTabs (file.line n.toUInt32) ++ [Text.newline]

/-- The marker below a line: one caret, and a tilde for each further column. -/
def marker (width : Nat) : Text := 94 :: List.replicate (width - 1) 126

/-- The lines down to the one where a span starts, and the marker. -/
def snippet (fs : FileSet) (color : Bool) (context : Int) (span : Span) : Text :=
  match fs.get? span.file, fs.resolve? span with
  | some file, some (start, stop) =>
    if start.line = 0 then []
    else
      let last := start.line.toNat
      let first := (max ((last : Int) - context) 1).toNat
      let gutter := (Text.ofNat last).length
      let lines := (List.range (last + 1 - first)).flatMap fun i =>
        sourceLine color gutter file (first + i)
      let line := file.line start.line
      let start' := columnIndex start.col line
      let stop' := if stop.line = start.line then columnIndex stop.col line else line.length
      let pad := Text.width (expandTabs (line.take start'))
      let covered := (line.drop start').take (max stop' start' - start')
      let width := max (Text.width (expandTabs covered)) 1
      lines ++ Style.blue.apply color (Text.spaces gutter ++ " |") ++ " " ++ Text.spaces pad ++
        Style.boldGreen.apply color (marker width) ++ [Text.newline]
  | _, _ => []

/-- A note with its snippet. Timings have none. -/
def note (fs : FileSet) (o : Options) (code : Code) (n : Note) : Text :=
  "  " ++ Style.boldBlue.apply o.color "note:" ++ " " ++ location fs n.span o.paths ++ ": " ++
    n.message ++ [Text.newline] ++
    (if code = .timings then [] else snippet fs o.color 0 n.span)

/-- A diagnostic with its snippet and its notes. Timings are always shown with their notes. -/
def diagnostic (fs : FileSet) (o : Options) (d : Diagnostic) : Text :=
  Style.bold.apply o.color (location fs d.primary o.paths) ++ ": " ++
    (severityStyle d.severity).apply o.color d.severity.header ++ " " ++
    Style.bold.apply o.color d.code.id ++ ": " ++ d.message ++ [Text.newline] ++
    snippet fs o.color o.context d.primary ++
    (if o.notes || d.code = .timings then d.notes.flatMap (note fs o d.code) else [])

/-- All diagnostics of a bag, with an empty line between neighbours. -/
def render (fs : FileSet) (o : Options) (ds : List Diagnostic) : Text :=
  Text.join [Text.newline] (ds.map (diagnostic fs o))

end Pretty

end DeclCheck
