import DeclCheck.Render.Listing
import DeclCheck.Render.Short
import DeclCheck.Run
import DeclCheck.Settings

/-!
# Reports

What a check prints: the diagnostics of its results, short, as JSON or with snippets. The results of
a directory are told apart by their paths.
-/
namespace DeclCheck.Cli

structure ReportOptions where
  format : OutputFormat := .pretty
  color : Bool := false
  paths : PathStyle := .auto
  notes : Bool := false
  scopes : Bool := false
  quiet : Bool := false
  /-- Do the results come from a directory? -/
  isDir : Bool := false

namespace Report

def displayPath (style : PathStyle) (r : Run.FileResult) : Text :=
  r.files.showPath r.source style r.files.baseDir

/-- The scopes of a result; only what was checked has any. -/
def scopesOf (r : Run.FileResult) : List ScopeView :=
  match r.checked with
  | none => []
  | some c =>
    let a := c.result.analysis
    (ScopeView.list c.loaded.tree a.lowering a.table).2

def plural (n : Nat) (word : Text) : Text := if n = 1 then word else word ++ "s"

def counted (n : Nat) (word : Text) : Text := Text.ofNat n ++ " " ++ plural n word

def countOf (s : Severity) (rs : List Run.FileResult) : Nat :=
  rs.foldl (fun n r => n + r.bag.items.countP (·.severity = s)) 0

def summary (rs : List Run.FileResult) : Text :=
  let cached := rs.countP (·.cached)
  "checked " ++ counted rs.length "manifest" ++ ": " ++ counted (countOf .error rs) "error" ++
    ", " ++ counted (countOf .warning rs) "warning" ++
    (if cached = 0 then [] else Text.ofString " (" ++ Text.ofNat cached ++ Text.ofString " cached)")

def short (o : ReportOptions) (rs : List Run.FileResult) : Text :=
  rs.flatMap fun r =>
    let text := Short.render r.files o.notes r.bag.items
    if text.isEmpty then [] else text ++ [Text.newline]

def listing (o : ReportOptions) (r : Run.FileResult) : Json :=
  Listing.toJson r.files
    { positions := true, paths := o.paths, notes := o.notes, scopes := o.scopes }
    r.bag.items (scopesOf r)

/-- The listing of one file, or the listings of a directory under their paths. -/
def json (o : ReportOptions) (rs : List Run.FileResult) : Text :=
  let value := match o.isDir, rs with
    | false, [r] => listing o r
    | _, rs => .object (rs.foldl
        (fun fields r => Json.insertField (displayPath o.paths r) (listing o r) fields) [])
  value.indented 0 ++ [Text.newline]

/-- The diagnostics of a result with snippets, for a directory under its path. -/
def snippets (o : ReportOptions) (r : Run.FileResult) : Text :=
  let head : Text := if o.isDir then "== " ++ displayPath o.paths r ++ " ==\n" else []
  head ++ Pretty.render r.files
    { color := o.color, context := 2, paths := o.paths, notes := o.notes } r.bag.items

/-- The diagnostics of all results that have any, with an empty line between neighbours, and the
summary. -/
def pretty (o : ReportOptions) (rs : List Run.FileResult) : Text :=
  let shown := rs.filter fun r => !r.bag.items.isEmpty
  Text.join [Text.newline] (shown.map (snippets o)) ++
    (if o.quiet then [] else summary rs ++ [Text.newline])

def render (o : ReportOptions) (rs : List Run.FileResult) : Text :=
  match o.format with
  | .short => short o rs
  | .json => json o rs
  | .pretty => pretty o rs

end Report

end DeclCheck.Cli
