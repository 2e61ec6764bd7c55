import DeclCheck.Proofs.Source.Access
import DeclCheck.Render.Listing
import DeclCheck.Render.Short

/-!
# Rendering inside the bounds

Diagnostics with snippets, as a listing and one a line, where whatever is read by an index, cut out of a line or
repeated is read, cut and repeated with a check. Each function stands beside the one without checks. If the files of
a set are indexed, all diagnostics can be rendered in this way, wherever their spans point, and the two agree.
-/
namespace DeclCheck.Checked

/-! ## Lists -/

section Lists

variable {α β : Type}

theorem mapM_eq_some {f : α → Option β} {g : α → β} (h : ∀ a, f a = some (g a)) (xs : List α) :
    xs.mapM f = some (xs.map g) := by
  rw [funext h]
  exact List.mapM_pure

/-- A loop over the first indices of a list reads its first elements. -/
theorem mapM_range_at? {f : α → Option β} {g : α → β} (h : ∀ a, f a = some (g a)) {xs : List α} {n : Nat}
    (hn : n ≤ xs.length) : ((List.range n).mapM fun i : Nat => (at? xs i).bind f) = some ((xs.take n).map g) := by
  induction n with
  | zero => rfl
  | succ n ih =>
    have hget := List.getElem?_eq_getElem hn
    have hlast : ([n].mapM fun i : Nat => (at? xs i).bind f) = some [g xs[n]] := by simp [hget, h]
    rw [List.range_succ, List.mapM_append, ih (by omega), hlast, List.take_add_one, hget, List.map_append]
    rfl

end Lists

/-! ## Places -/

/-- The file with a number that the set has. -/
def file? (fs : FileSet) (id : FileId) : Option SourceFile := at? fs.files.toList id

/-- The positions of the ends of a span of a file of the set. -/
def resolve? (fs : FileSet) (span : Span) : Option (LineCol × LineCol) := do
  let f ← file? fs span.file
  let start ← position? f.breaks span.start
  let stop ← position? f.breaks span.stop
  return (start, stop)

def pathOf? (fs : FileSet) (id : FileId) (style : PathStyle) : Option Text :=
  if fs.size ≤ id then some "<unknown>"
  else do
    let f ← file? fs id
    return fs.showPath f style fs.baseDir

/-- What is known of the file of a span decides all that is read of it. -/
theorem place_cases (fs : FileSet) (span : Span) :
    (fs.size ≤ span.file ∧ fs.get? span.file = none) ∨
      ∃ f, ¬ fs.size ≤ span.file ∧ fs.get? span.file = some f ∧ file? fs span.file = some f := by
  unfold FileSet.size FileSet.get? file?
  by_cases h : fs.files.size ≤ span.file
  · exact .inl ⟨h, Array.getElem?_eq_none h⟩
  · have hget := Array.getElem?_eq_getElem (Nat.not_le.mp h)
    exact .inr ⟨_, h, hget, by rw [at?_natCast, Array.getElem?_toList, hget]⟩

theorem resolve?_eq {fs : FileSet} (hfs : fs.Indexed) {span : Span} {f : SourceFile}
    (hget : fs.get? span.file = some f) (hfile : file? fs span.file = some f) :
    resolve? fs span = some (f.position span.start, f.position span.stop) := by
  have hf := hfs.file hget
  simp [resolve?, hfile, filePosition?_eq hf]

theorem pathOf?_eq (fs : FileSet) (span : Span) (style : PathStyle) :
    pathOf? fs span.file style = some (fs.pathOf span.file style) := by
  rcases place_cases fs span with ⟨hout, hget⟩ | ⟨f, hin, hget, hfile⟩
  · simp [pathOf?, FileSet.pathOf, hout, hget]
  · simp [pathOf?, FileSet.pathOf, hin, hget, hfile]

/-! ## Diagnostics with snippets -/

def location? (fs : FileSet) (span : Span) (paths : PathStyle) : Option Text := do
  let path ← pathOf? fs span.file paths
  if fs.size ≤ span.file then return path
  else
    let ends ← resolve? fs span
    return path ++ ":" ++ Text.ofNat ends.1.line.toNat ++ ":" ++ Text.ofNat ends.1.col.toNat

/-- The index of a column in a line, not before its start and not behind its end. -/
def columnIndex (column : UInt32) (line : Text) : Int :=
  if (column.toNat : Int) - 1 < 0 then 0
  else if (line.length : Int) < column.toNat - 1 then line.length
  else column.toNat - 1

def sourceLine? (color : Bool) (gutter : Nat) (file : SourceFile) (n : Nat) : Option Text := do
  let line ← line? file n.toUInt32
  return Style.blue.apply color (Text.padLeft gutter (Text.ofNat n) ++ " |") ++ " " ++ Pretty.expandTabs line ++
    [Text.newline]

/-- The lines down to the one where a span starts, and the marker, of a span between two positions. -/
def snippetAt? (color : Bool) (context : Int) (file : SourceFile) (start stop : LineCol) : Option Text := do
  let last := start.line.toNat
  let first := (max ((last : Int) - context) 1).toNat
  let gutter := (Text.ofNat last).length
  let lines ← (List.range (last + 1 - first)).mapM fun i => sourceLine? color gutter file (first + i)
  let line ← line? file start.line
  let start' := columnIndex start.col line
  let stop' := if stop.line = start.line then columnIndex stop.col line else line.length
  let before ← slice? line 0 start'
  let covered ← slice? line start' (max stop' start')
  let pad ← copies? (Text.width (Pretty.expandTabs before)) Text.space
  let tildes ← copies? (max (Text.width (Pretty.expandTabs covered) : Int) 1 - 1) 126
  return lines.flatten ++ Style.blue.apply color (Text.spaces gutter ++ " |") ++ " " ++ pad ++
    Style.boldGreen.apply color (94 :: tildes) ++ [Text.newline]

def snippet? (fs : FileSet) (color : Bool) (context : Int) (span : Span) : Option Text :=
  if fs.size ≤ span.file then some []
  else do
    let file ← file? fs span.file
    let ends ← resolve? fs span
    if ends.1.line = 0 then return [] else snippetAt? color context file ends.1 ends.2

def note? (fs : FileSet) (o : Pretty.Options) (code : Code) (n : Note) : Option Text := do
  let place ← location? fs n.span o.paths
  let lines ← if code = .timings then some [] else snippet? fs o.color 0 n.span
  return "  " ++ Style.boldBlue.apply o.color "note:" ++ " " ++ place ++ ": " ++ n.message ++ [Text.newline] ++
    lines

def diagnostic? (fs : FileSet) (o : Pretty.Options) (d : Diagnostic) : Option Text := do
  let place ← location? fs d.primary o.paths
  let lines ← snippet? fs o.color o.context d.primary
  let notes ← if o.notes || d.code = .timings then d.notes.mapM (note? fs o d.code) else some []
  return Style.bold.apply o.color place ++ ": " ++
    (Pretty.severityStyle d.severity).apply o.color d.severity.header ++ " " ++
    Style.bold.apply o.color d.code.id ++ ": " ++ d.message ++ [Text.newline] ++ lines ++ notes.flatten

def pretty? (fs : FileSet) (o : Pretty.Options) (ds : List Diagnostic) : Option Text := do
  let texts ← (List.range ds.length).mapM fun i : Nat => (at? ds i).bind (diagnostic? fs o)
  return Text.join [Text.newline] texts

theorem slice?_front {line : Text} {first : Nat} (hfirst : first ≤ line.length) :
    slice? line 0 (first : Int) = some (line.take first) := by
  have hslice := slice?_natCast (Nat.zero_le first) hfirst
  simpa using hslice

theorem slice?_behind {line : Text} {first last : Nat} (hfirst : first ≤ line.length) (hlast : last ≤ line.length) :
    slice? line (first : Int) (max (last : Int) first) = some ((line.drop first).take (max last first - first)) := by
  rw [← slice?_natCast (Nat.le_max_right last first) (Nat.max_le.mpr ⟨hlast, hfirst⟩)]
  congr 1
  omega

/-- Of at least one column the marker has one already. -/
theorem copies?_further (w : Nat) (b : UInt8) :
    copies? (max (w : Int) 1 - 1) b = some (List.replicate (max w 1 - 1) b) := by
  rw [← copies?_natCast]
  congr 1
  omega

theorem columnIndex_eq (column : UInt32) (line : Text) :
    columnIndex column line = (Pretty.columnIndex column line : Nat) := by
  unfold columnIndex Pretty.columnIndex
  split
  · omega
  · split <;> omega

section Snippets

variable {f : SourceFile} (hf : f.Indexed)
include hf

theorem sourceLine?_eq (color : Bool) (gutter n : Nat) :
    sourceLine? color gutter f n = some (Pretty.sourceLine color gutter f n) := by
  simp [sourceLine?, line?_eq hf, Pretty.sourceLine]

/-- The snippet of a span between two positions, of which the first is on a line. -/
theorem snippetAt?_eq {fs : FileSet} (color : Bool) (context : Int) {span : Span}
    (hget : fs.get? span.file = some f) (hline : (f.position span.start).line ≠ 0) :
    snippetAt? color context f (f.position span.start) (f.position span.stop) =
      some (Pretty.snippet fs color context span) := by
  have hresolve : fs.resolve? span = some (f.position span.start, f.position span.stop) := by
    simp [FileSet.resolve?, hget]
  simp only [Pretty.snippet, hget, hresolve, if_neg hline]
  simp only [snippetAt?, line?_eq hf, mapM_eq_some fun i => sourceLine?_eq hf color _ (_ + i), Option.bind_eq_bind,
    Option.bind_some]
  generalize f.position span.start = start, f.position span.stop = stop
  generalize hlast : f.line start.line = line
  -- Both indices are in the line, and the marker ends no sooner than it starts.
  have hstart : columnIndex start.col line = (Pretty.columnIndex start.col line : Nat) := columnIndex_eq ..
  have hstop : (if stop.line = start.line then columnIndex stop.col line else (line.length : Int)) =
      ((if stop.line = start.line then Pretty.columnIndex stop.col line else line.length : Nat) : Int) := by
    rw [columnIndex_eq]
    split <;> rfl
  have hle : Pretty.columnIndex start.col line ≤ line.length := Nat.min_le_right ..
  have hle' : (if stop.line = start.line then Pretty.columnIndex stop.col line else line.length) ≤ line.length := by
    split
    · exact Nat.min_le_right ..
    · exact Nat.le_refl _
  rw [hstart, hstop]
  generalize (if stop.line = start.line then Pretty.columnIndex stop.col line else line.length) = last at hle'
  generalize Pretty.columnIndex start.col line = first at hle
  simp only [slice?_front hle, slice?_behind hle hle', copies?_further, copies?_natCast, Option.bind_some,
    List.flatMap, Pretty.marker, Text.spaces]
  rfl

end Snippets

section Sets

variable {fs : FileSet} (hfs : fs.Indexed)
include hfs

theorem location?_eq (span : Span) (paths : PathStyle) :
    location? fs span paths = some (Pretty.location fs span paths) := by
  rcases place_cases fs span with ⟨hout, hget⟩ | ⟨f, hin, hget, hfile⟩
  · simp [location?, pathOf?_eq, Pretty.location, FileSet.resolve?, hout, hget]
  · simp [location?, pathOf?_eq, Pretty.location, FileSet.resolve?, hin, hget, resolve?_eq hfs hget hfile]

theorem snippet?_eq (color : Bool) (context : Int) (span : Span) :
    snippet? fs color context span = some (Pretty.snippet fs color context span) := by
  rcases place_cases fs span with ⟨hout, hget⟩ | ⟨f, hin, hget, hfile⟩
  · simp [snippet?, Pretty.snippet, hout, hget]
  · rw [snippet?, if_neg hin, hfile, resolve?_eq hfs hget hfile]
    simp only [Option.bind_eq_bind, Option.bind_some]
    split
    · next hline => simp [Pretty.snippet, FileSet.resolve?, hget, hline]
    · next hline => exact snippetAt?_eq (hfs.file hget) color context hget hline

theorem note?_eq (o : Pretty.Options) (code : Code) (n : Note) :
    note? fs o code n = some (Pretty.note fs o code n) := by
  rw [note?, location?_eq hfs, snippet?_eq hfs, Pretty.note]
  split <;> simp

theorem diagnostic?_eq (o : Pretty.Options) (d : Diagnostic) :
    diagnostic? fs o d = some (Pretty.diagnostic fs o d) := by
  rw [diagnostic?, location?_eq hfs, snippet?_eq hfs, mapM_eq_some (note?_eq hfs o d.code), Pretty.diagnostic]
  split <;> simp [List.flatMap]

theorem pretty?_eq (o : Pretty.Options) (ds : List Diagnostic) :
    pretty? fs o ds = some (Pretty.render fs o ds) := by
  rw [pretty?, mapM_range_at? (diagnostic?_eq hfs o) (Nat.le_refl _), List.take_length]
  rfl

end Sets

/-! ## The listing -/

/-- The positions of a span of a file of the set. -/
def positions? (fs : FileSet) (span : Span) : Option (List (Text × Json)) := do
  let ends ← resolve? fs span
  return Json.nonZero "start_line" ends.1.line.toNat ++ Json.nonZero "start_col" ends.1.col.toNat ++
    Json.nonZero "end_line" ends.2.line.toNat ++ Json.nonZero "end_col" ends.2.col.toNat

/-- The place of a span. -/
def place? (fs : FileSet) (o : Listing.Options) (span : Span) : Option Json := do
  let path ← pathOf? fs span.file o.paths
  let positions ← if o.positions && span.file < fs.size then positions? fs span else some []
  return .object (Json.field "file" (.text path) ++ Json.field "start_byte" (.number span.start.toNat) ++
    Json.field "end_byte" (.number span.stop.toNat) ++ positions)

def listedNote? (fs : FileSet) (o : Listing.Options) (n : Note) : Option Json := do
  let place ← place? fs o n.span
  return .object (Json.field "message" (.text n.message) ++ Json.field "location" place)

def listedDiagnostic? (fs : FileSet) (o : Listing.Options) (d : Diagnostic) : Option Json := do
  let place ← place? fs o d.primary
  let notes ←
    if (o.notes || d.code = .timings) && !d.notes.isEmpty then
      (d.notes.mapM (listedNote? fs o)).map fun notes => Json.field "notes" (.list notes)
    else some []
  return .object (Json.field "severity" (.text d.severity.header) ++ Json.field "code" (.text d.code.id) ++
    Json.field "title" (.text d.code.title) ++ Json.field "message" (.text d.message) ++
    Json.field "location" place ++ notes)

/-- How many diagnostics are listed. -/
def listedCount (o : Listing.Options) (ds : List Diagnostic) : Nat :=
  if 0 < o.limit ∧ o.limit < ds.length then o.limit.toNat else ds.length

def listing? (fs : FileSet) (o : Listing.Options) (ds : List Diagnostic) (scopes : List ScopeView) :
    Option Json := do
  let shown ← (List.range (listedCount o ds)).mapM fun i : Nat => (at? ds i).bind (listedDiagnostic? fs o)
  return .object (Json.field "diagnostics" (.list shown) ++ Json.field "count" (.number shown.length) ++
    if o.scopes && !scopes.isEmpty then Json.field "scopes" (.list (scopes.map ScopeView.toJson)) else [])

theorem listedCount_le (o : Listing.Options) (ds : List Diagnostic) : listedCount o ds ≤ ds.length := by
  unfold listedCount
  split <;> omega

theorem take_listedCount (o : Listing.Options) (ds : List Diagnostic) :
    ds.take (listedCount o ds) = Listing.listed o ds := by
  unfold listedCount Listing.listed
  by_cases hlimit : 0 < o.limit
  · rw [if_pos hlimit]
    split
    · rfl
    · rw [List.take_length, List.take_of_length_le (by omega)]
  · rw [if_neg hlimit, if_neg (fun h => hlimit h.1), List.take_length]

section Listings

variable {fs : FileSet} (hfs : fs.Indexed) (o : Listing.Options)
include hfs

theorem place?_eq (span : Span) : place? fs o span = some (Listing.location fs o span) := by
  rcases place_cases fs span with ⟨hout, hget⟩ | ⟨f, hin, hget, hfile⟩
  · cases hpositions : o.positions <;>
      simp [place?, pathOf?_eq, Listing.location, FileSet.resolve?, Nat.not_lt.mpr hout, hget, hpositions]
  · cases hpositions : o.positions <;>
      simp [place?, pathOf?_eq, Listing.location, FileSet.resolve?, Nat.not_le.mp hin, hget, hpositions, positions?,
        resolve?_eq hfs hget hfile]

theorem listedDiagnostic?_eq (d : Diagnostic) :
    listedDiagnostic? fs o d = some (Listing.diagnostic fs o d) := by
  have hnotes := mapM_eq_some (f := listedNote? fs o) (fun n => by
    rw [listedNote?, place?_eq hfs o]
    rfl) d.notes
  rw [listedDiagnostic?, place?_eq hfs o, hnotes, Listing.diagnostic, Listing.notes]
  split <;> simp

theorem listing?_eq (ds : List Diagnostic) (scopes : List ScopeView) :
    listing? fs o ds scopes = some (Listing.toJson fs o ds scopes) := by
  rw [listing?, mapM_range_at? (listedDiagnostic?_eq hfs o) (listedCount_le o ds), take_listedCount]
  simp [Listing.toJson]

end Listings

/-! ## One line a diagnostic -/

/-- The line for a place; there is none for an unknown file. -/
def lineAt? (fs : FileSet) (severity code : Text) (span : Span) (message : Text) : Option (Option Short.Line) :=
  if fs.size ≤ span.file then some none
  else do
    let file ← file? fs span.file
    let ends ← resolve? fs span
    return some { severity, code, path := Short.shownPath fs file, line := ends.1.line.toNat,
                  column := ends.1.col.toNat, message := Short.flatten message }

def linesOf? (fs : FileSet) (withNotes : Bool) (d : Diagnostic) : Option (List Short.Line) := do
  let head ← lineAt? fs d.severity.label d.code.id d.primary d.message
  let notes ←
    if withNotes then d.notes.mapM fun n => lineAt? fs Short.noteLabel d.code.id n.span n.message else some []
  return head.toList.flatMap fun l => l :: notes.filterMap id

/-- Adds a line to the groups, of which the last one takes the notes. -/
def addLine? (groups : List (List Short.Line)) (l : Short.Line) : Option (List (List Short.Line)) :=
  if l.severity = Short.noteLabel ∧ 0 < groups.length then do
    let last ← at? groups (groups.length - 1)
    return groups.set (groups.length - 1) (last ++ [l])
  else some (groups ++ [[l]])

/-- Groups in the order of their first lines. -/
def sortGroups? (groups : List (List Short.Line)) : Option (List (List Short.Line)) := do
  let heads ← groups.mapM (at? · 0)
  return ((heads.zip groups).mergeSort fun a b => Short.order a.1 b.1 != .gt).map Prod.snd

def short? (fs : FileSet) (withNotes : Bool) (ds : List Diagnostic) : Option Text := do
  let lines ← ds.mapM (linesOf? fs withNotes)
  let groups ← lines.flatten.foldlM addLine? []
  let sorted ← sortGroups? groups
  return Text.join [Text.newline] (sorted.flatten.map Short.Line.render)

/-- The lines of a group, of which there is at least one. -/
def linesIn (g : Short.Group) : List Short.Line := g.head :: g.notes

theorem addLine?_eq (gs : List Short.Group) (l : Short.Line) :
    addLine? (gs.reverse.map linesIn) l = some ((Short.addLine gs l).reverse.map linesIn) := by
  cases gs with
  | nil => simp [addLine?, Short.addLine, linesIn]
  | cons g gs =>
    by_cases hnote : l.severity = Short.noteLabel <;> simp [addLine?, Short.addLine, linesIn, hnote]

theorem foldlM_addLine? (gs : List Short.Group) (ls : List Short.Line) :
    ls.foldlM addLine? (gs.reverse.map linesIn) = some ((ls.foldl Short.addLine gs).reverse.map linesIn) := by
  induction ls generalizing gs with
  | nil => rfl
  | cons l ls ih =>
    rw [List.foldlM_cons, addLine?_eq, Option.bind_eq_bind, Option.bind_some, ih]
    rfl

theorem sortGroups?_eq (gs : List Short.Group) :
    sortGroups? (gs.map linesIn) = some ((Short.sortGroups gs).map linesIn) := by
  have hheads : (gs.map linesIn).mapM (at? · 0) = some (gs.map Short.Group.head) := by
    rw [List.mapM_map]
    exact mapM_eq_some (fun _ => rfl) gs
  have hsort := List.map_mergeSort (r := fun a b => Short.order a.head b.head != .gt)
    (s := fun a b => Short.order a.1 b.1 != .gt) (f := fun g => (g.head, linesIn g)) (l := gs)
    fun _ _ _ _ => rfl
  rw [sortGroups?, hheads, Option.bind_eq_bind, Option.bind_some, List.zip_map', ← hsort, Short.sortGroups,
    List.map_map]
  rfl

section Shorts

variable {fs : FileSet} (hfs : fs.Indexed)
include hfs

theorem lineAt?_eq (severity code : Text) (span : Span) (message : Text) :
    lineAt? fs severity code span message = some (Short.lineAt? fs severity code span message) := by
  rcases place_cases fs span with ⟨hout, hget⟩ | ⟨f, hin, hget, hfile⟩
  · simp [lineAt?, Short.lineAt?, hout, hget]
  · simp [lineAt?, Short.lineAt?, FileSet.resolve?, hin, hget, hfile, resolve?_eq hfs hget hfile]

theorem linesOf?_eq (withNotes : Bool) (d : Diagnostic) :
    linesOf? fs withNotes d = some (Short.linesOf fs withNotes d) := by
  have hnotes := mapM_eq_some
    (fun n : Note => lineAt?_eq hfs Short.noteLabel d.code.id n.span n.message) d.notes
  rw [linesOf?, lineAt?_eq hfs, hnotes, Short.linesOf, Short.headLine?]
  cases Short.lineAt? fs d.severity.label d.code.id d.primary d.message <;> cases withNotes <;>
    simp [Short.noteLines, List.filterMap_map]

theorem short?_eq (withNotes : Bool) (ds : List Diagnostic) :
    short? fs withNotes ds = some (Short.render fs withNotes ds) := by
  have hgroups := foldlM_addLine? [] (ds.flatMap (Short.linesOf fs withNotes))
  rw [short?, mapM_eq_some (linesOf?_eq hfs withNotes)]
  simp only [Option.bind_eq_bind, Option.bind_some, ← List.flatMap_def]
  rw [show ([] : List (List Short.Line)) = ([] : List Short.Group).reverse.map linesIn from rfl, hgroups]
  simp only [Option.bind_some]
  rw [sortGroups?_eq, Option.bind_some, ← List.flatMap_def]
  rfl

end Shorts

end DeclCheck.Checked
