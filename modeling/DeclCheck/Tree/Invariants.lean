import DeclCheck.Tree
import DeclCheck.Source.FileSet
import DeclCheck.Text.Quoted

/-!
# Structure of a tree against its text

Every declaration lies inside its unit and holds its own name, children point back at the
declaration that lists them, and functions are complete.
-/
namespace DeclCheck.Tree

inductive Defect where
  | unknownUnit
  | emptyUnit (span : Span)
  | unitOfOtherFile (found wanted : FileId)
  | unitPastEnd (stop size : Nat)
  | unknownDecl (id : DeclId)
  | emptySpan (kind : DeclKind) (name : Text) (span : Span)
  | otherFile (kind : DeclKind) (name : Text) (found wanted : FileId)
  | outsideUnit (kind : DeclKind) (name : Text) (span unit : Span)
  | nameOutside (kind : DeclKind) (name : Text) (nameSpan span : Span)
  | wrongParent (kind : DeclKind) (name : Text) (parent owner : DeclId)
  | incomplete (name : Text) (state : FunctionState)
  | memberNotPrototype (name : Text)
  | prototypeWithBody (name : Text)
  deriving DecidableEq, Repr

def Defect.subject (kind : DeclKind) (name : Text) : Text :=
  kind.label ++ " " ++ name.quote ++ ": "

def Defect.message : Defect → Text
  | unknownUnit => "file node not found"
  | emptyUnit s => "file span is empty: " ++ s.render
  | unitOfOtherFile found wanted =>
    "file span points to different file id: got=" ++ Text.ofNat found ++ " want=" ++
      Text.ofNat wanted
  | unitPastEnd stop size =>
    "file span end beyond content: " ++ Text.ofNat stop ++ " > " ++ Text.ofNat size
  | unknownDecl id => "nil decl for id=" ++ Text.ofNat id
  | emptySpan k n s => subject k n ++ "empty span " ++ s.render
  | otherFile k n found wanted =>
    subject k n ++ "span file mismatch: got=" ++ Text.ofNat found ++ " want=" ++ Text.ofNat wanted
  | outsideUnit k n s u =>
    subject k n ++ "span " ++ s.render ++ " is outside file span " ++ u.render
  | nameOutside k n s d =>
    subject k n ++ "name span " ++ s.render ++ " outside declaration " ++ d.render
  | wrongParent k n p o =>
    subject k n ++ "parent " ++ Text.ofNat p ++ ", listed by " ++ Text.ofNat o
  | incomplete n s => "fn " ++ n.quote ++ " left in state " ++ s.label
  | memberNotPrototype n => "interface member " ++ n.quote ++ " is not a prototype"
  | prototypeWithBody n => "prototype " ++ n.quote ++ " has a body"

def defectIf (b : Bool) (d : Defect) : List Defect := if b then [d] else []

def ownDefects (t : Tree) (unit : Span) (file : FileId) (owner : DeclId) (inInterface : Bool)
    (d : Decl) : List Defect :=
  let name := t.names.get d.name.name
  defectIf (d.span.stop ≤ d.span.start) (.emptySpan d.kind name d.span) ++
  defectIf (d.span.file != file) (.otherFile d.kind name d.span.file file) ++
  defectIf (!unit.contains d.span) (.outsideUnit d.kind name d.span unit) ++
  defectIf (!d.span.contains d.name.span) (.nameOutside d.kind name d.name.span d.span) ++
  defectIf (d.parent != owner) (.wrongParent d.kind name d.parent owner) ++
  match d.function? with
  | none => []
  | some f =>
    defectIf (f.state != .complete) (.incomplete name f.state) ++
    defectIf (inInterface && !f.isPrototype) (.memberNotPrototype name) ++
    defectIf (f.isPrototype && f.body != 0) (.prototypeWithBody name)

/-- The defects of a declaration and of those inside it, to a given depth. -/
def defectsWithin (t : Tree) (unit : Span) (file : FileId) :
    Nat → DeclId → DeclId → Bool → List Defect
  | 0, _, _, _ => []
  | depth + 1, id, owner, inInterface =>
    match t.decl? id with
    | none => [.unknownDecl id]
    | some d =>
      t.ownDefects unit file owner inInterface d ++
        d.children.flatMap fun c =>
          t.defectsWithin unit file depth c id (d.kind == .interface)

/-- The defects of a unit of a file with a given number and size. A defect of the unit itself
hides the others. Unless a class lists itself, no declaration lies deeper than there are
declarations. -/
def defects (t : Tree) (unit : UnitId) (file : FileId) (size : Nat) : List Defect :=
  match t.unit? unit with
  | none => [.unknownUnit]
  | some u =>
    if !u.decls.isEmpty && u.span.stop ≤ u.span.start then [.emptyUnit u.span]
    else if u.span.file ≠ file then [.unitOfOtherFile u.span.file file]
    else if size < u.span.stop.toNat then [.unitPastEnd u.span.stop.toNat size]
    else u.decls.flatMap fun id => t.defectsWithin u.span file (t.decls.size + 1) id 0 false

def describeDefects? : List Defect → Option Text
  | [] => none
  | ds => some (Text.join [Text.newline] (ds.map Defect.message))

end DeclCheck.Tree
