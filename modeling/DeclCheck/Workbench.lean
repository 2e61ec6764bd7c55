import DeclCheck.Check.Oracle
import DeclCheck.Tree.Invariants

/-!
# Trees built by hand

A workbench holds a tree that is built step by step, the scopes and names that were made for it,
and what the last check left to ask. Questions are asked of the tree and the names as they are
now; once either is replaced, they are asked of what it was then.
-/
namespace DeclCheck

/-- What a check leaves to ask. A tree or names that are not given are the current ones. -/
structure Questions where
  lowering : Lowering := {}
  tree : Option Tree := none
  globals : Option Globals := none

structure Workbench where
  tree : Tree := {}
  table : Option ScopeTable := none
  globals : Option Globals := none
  questions : Option Questions := none

namespace Workbench

/-- The current names, none if there are no names yet. -/
def names (w : Workbench) : Globals := w.globals.getD {}

def renewTree (w : Workbench) : Workbench :=
  { w with
    tree := {}
    questions := w.questions.map fun q => { q with tree := some (q.tree.getD w.tree) } }

def renewGlobals (w : Workbench) (g : Globals) : Workbench :=
  { w with
    globals := some g
    questions := w.questions.map fun q => { q with globals := some (q.globals.getD w.names) } }

def program (w : Workbench) (q : Questions) : Program :=
  ⟨q.tree.getD w.tree, q.globals.getD w.names⟩

def ident (w : Workbench) (text : Text) : Workbench × NameId :=
  let (tree, ident) := w.tree.ident text {}
  ({ w with tree }, ident.name)

inductive Registry where
  /-- Those of the unit. -/
  | collected
  /-- The current ones. -/
  | current
  deriving DecidableEq, Repr

/-- Checks a unit. A check that runs through replaces the scopes and the questions. -/
def check (w : Workbench) (unit : UnitId) (registry : Registry) : Workbench × CheckResult :=
  let w := if registry = .current then { w with globals := some w.names } else w
  let result := DeclCheck.check w.tree unit (if registry = .current then w.globals else none) none
  match result.fault with
  | some _ => (w, result)
  | none =>
    ({ w with
        table := some result.analysis.table
        questions := some
          { lowering := result.analysis.lowering
            globals := if registry = .current then none else some result.globals } }, result)

/-- Asks a question that may look at types for the first time. -/
def ask {α : Type} (w : Workbench) (q : Questions) (f : Tree → Lowering → Lowering × α) :
    Workbench × α :=
  let (lowering, a) := f (w.program q).tree q.lowering
  ({ w with questions := some { q with lowering } }, a)

end Workbench

end DeclCheck
