import DeclCheck.Render.Json
import DeclCheck.Render.Pretty
import DeclCheck.Render.Scopes

/-!
# Diagnostics as JSON

The diagnostics of a bag with their number, and the scopes if they are wanted and there are any.
-/
namespace DeclCheck.Listing

/-- What is listed. A limit of zero or less is none. -/
structure Options where
  positions : Bool := false
  paths : PathStyle := .auto
  limit : Int := 0
  notes : Bool := false
  scopes : Bool := false

/-- The place of a span; positions are listed only for known files. -/
def location (fs : FileSet) (o : Options) (span : Span) : Json :=
  .object (Json.field "file" (.text (fs.pathOf span.file o.paths)) ++
    Json.field "start_byte" (.number span.start.toNat) ++
    Json.field "end_byte" (.number span.stop.toNat) ++
    match o.positions, fs.resolve? span with
    | true, some (start, stop) =>
      Json.nonZero "start_line" start.line.toNat ++ Json.nonZero "start_col" start.col.toNat ++
      Json.nonZero "end_line" stop.line.toNat ++ Json.nonZero "end_col" stop.col.toNat
    | _, _ => [])

/-- The notes of a diagnostic, if they are listed and there are any. Those of timings always
are. -/
def notes (fs : FileSet) (o : Options) (d : Diagnostic) : List (Text × Json) :=
  if (o.notes || d.code = .timings) && !d.notes.isEmpty then
    Json.field "notes" (.list (d.notes.map fun n =>
      .object (Json.field "message" (.text n.message) ++
        Json.field "location" (location fs o n.span))))
  else []

def diagnostic (fs : FileSet) (o : Options) (d : Diagnostic) : Json :=
  .object (Json.field "severity" (.text d.severity.header) ++
    Json.field "code" (.text d.code.id) ++ Json.field "title" (.text d.code.title) ++
    Json.field "message" (.text d.message) ++
    Json.field "location" (location fs o d.primary) ++ notes fs o d)

def listed (o : Options) (ds : List Diagnostic) : List Diagnostic :=
  if 0 < o.limit then ds.take o.limit.toNat else ds

def toJson (fs : FileSet) (o : Options) (ds : List Diagnostic) (scopes : List ScopeView) : Json :=
  let shown := listed o ds
  .object (Json.field "diagnostics" (.list (shown.map (diagnostic fs o))) ++
    Json.field "count" (.number shown.length) ++
    if o.scopes && !scopes.isEmpty then
      Json.field "scopes" (.list (scopes.map ScopeView.toJson))
    else [])

def render (fs : FileSet) (o : Options) (ds : List Diagnostic) (scopes : List ScopeView) : Text :=
  (toJson fs o ds scopes).indented 0 ++ [Text.newline]

end DeclCheck.Listing
