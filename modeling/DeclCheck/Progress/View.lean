import DeclCheck.Progress
import DeclCheck.Text.Width

/-!
# The progress view

One line a file, under a title with a spinner and above a bar. The bar is full once no more events
can come.
-/
namespace DeclCheck.Progress

structure Item where
  path : Text
  status : Text := "queued"
  stage : Stage := {}
  finished : Bool := false
  deriving Repr, Inhabited

def Stage.activity (s : Stage) : Text :=
  if s = .load then "loading"
  else if s = .sema then "resolving"
  else if s = .cache then "cached"
  else []

/-- What the view says for a stage and how far it is; nothing for what it does not know. -/
def statusLabel (stage : Stage) (status : Status) : Text :=
  if status = .queued then "queued"
  else if status = .cached then "cached"
  else if status = .error then "error"
  else if status = .done then if stage = .whole then "done" else stage.activity
  else if status = .working then stage.activity
  else []

/-- The item after an event about its file. An event about the whole file settles whether it is
finished; what is said of the stages of a finished file does not show. -/
def Item.apply (i : Item) (e : Event) : Item :=
  let i :=
    if e.stage = .whole then { i with finished := e.status != .working }
    else { i with stage := e.stage }
  let label := statusLabel e.stage e.status
  if label.isEmpty || (i.finished && e.stage != .whole) then i else { i with status := label }

structure View where
  title : Text
  items : List Item
  width : Int := 80
  barWidth : Int := 76
  /-- How many times the spinner moved. -/
  frame : Nat := 0
  done : Bool := false
  deriving Repr, Inhabited

namespace View

def ofFiles (title : Text) (files : List Text) : View :=
  { title, items := files.map fun path => { path } }

def updateLast (p : Item → Bool) (f : Item → Item) : List Item → List Item
  | [] => []
  | i :: rest =>
    if p i && !rest.any p then f i :: rest else i :: updateLast p f rest

/-- The view after an event. A file that is listed twice is followed on its last line, and one
that is not listed is passed over. -/
def apply (v : View) (e : Event) : View :=
  { v with items := updateLast (·.path == e.file) (·.apply e) v.items }

/-- No more events come. -/
def close (v : View) : View := { v with done := true }

/-- The spinner moves on while the view is live. -/
def tick (v : View) : View := if v.done then v else { v with frame := v.frame + 1 }

def resize (v : View) (width : Int) : View :=
  if 0 < width then { v with width, barWidth := width - 4 } else v

def finished (v : View) : Nat := v.items.countP (·.finished)

def frames : List Text := ["⣾", "⣽", "⣻", "⢿", "⡿", "⣟", "⣯", "⣷"]

/-- The lines of a text in one block: tabs are four spaces, and lines of several are filled up to
the widest. -/
def block (t : Text) : Text :=
  let t := Text.replaceByte Text.tab (Text.spaces 4) t
  let lines := (Text.splitOn Text.newline t)
  match lines with
  | [line] => line
  | _ =>
    let lines := lines.mapIdx fun i l =>
      if i + 1 < lines.length then l.dropTrailing [Text.carriageReturn] else l
    let widest := (lines.map Text.width).foldl max 0
    Text.join [Text.newline] (lines.map fun l => Text.fillRight l widest)

def header (v : View) : Text :=
  let count := v.title ++ " (" ++ Text.ofNat v.finished ++ "/" ++ Text.ofNat v.items.length ++ ")"
  block (if v.done then Text.ofString "done: " ++ count
    else frames.getD (v.frame % frames.length) [] ++ "  " ++ count)

/-- A path cut to a width; a path that is cut ends in points and is shorter by three columns. -/
def cut (path : Text) (width : Nat) : Text :=
  if path.width ≤ width then path else path.truncate (width - 3) "..."

def itemLine (v : View) (i : Item) : Text :=
  "  " ++ i.status.padLeft 12 ++ " " ++ cut i.path (max (v.width - 16) 20).toNat ++
    [Text.newline]

def bar (v : View) : Text :=
  let cells := (v.barWidth - 5).toNat
  if v.done then (List.replicate cells (Text.ofString "█")).flatten ++ " 100%"
  else (List.replicate cells (Text.ofString "░")).flatten ++ "   0%"

/-- The view as text; without items there is none. -/
def render (v : View) : Text :=
  if v.items.isEmpty then []
  else v.header ++ "\n\n" ++ v.items.flatMap v.itemLine ++ "\n" ++ v.bar ++ "\n"

end View

end DeclCheck.Progress
