import DeclCheck.Diagnostic

/-!
# Bags

A bag keeps diagnostics up to a limit and counts those above it. Sorting and dropping repeats
bring it into the order in which it is shown.
-/
namespace DeclCheck

/-- Diagnostics in the order in which they came. A limit of zero is none. -/
structure Bag where
  items : List Diagnostic := []
  limit : Nat := 0
  dropped : Nat := 0
  deriving Repr, Inhabited

namespace Bag

/-- An empty bag; a negative limit is none. -/
def empty (limit : Int) : Bag := { limit := limit.toNat }

def isFull (b : Bag) : Bool := 0 < b.limit && b.limit ≤ b.items.length

/-- Keeps a diagnostic if there is room, and counts it as dropped if not. -/
def add (b : Bag) (d : Diagnostic) : Bag :=
  if b.isFull then { b with dropped := b.dropped + 1 } else { b with items := b.items ++ [d] }

def hasErrors (b : Bag) : Bool := b.items.any (·.severity.isError)

def hasWarnings (b : Bag) : Bool := b.items.any (·.severity.isWarning)

def count (b : Bag) (c : Code) : Nat := b.items.countP (·.code == c)

/-- Takes over all diagnostics of another bag; the limit grows as far as that needs. -/
def merge (b other : Bag) : Bag :=
  let total := b.items.length + other.items.length
  { items := b.items ++ other.items
    limit := if 0 < b.limit && b.limit < total then total else b.limit
    dropped := b.dropped + other.dropped }

/-- Lexicographic order: the first comparison that tells the two apart decides. -/
def firstDifference : List Ordering → Ordering
  | [] => .eq
  | .eq :: rest => firstDifference rest
  | o :: _ => o

/-- The order of diagnostics: by file, start, end, the worse first, then by code. -/
def order (d e : Diagnostic) : Ordering :=
  firstDifference
    [compare d.primary.file e.primary.file,
     compare d.primary.start e.primary.start,
     compare d.primary.stop e.primary.stop,
     compare e.severity.rank d.severity.rank,
     compare d.code.number e.code.number]

/-- Diagnostics in order; those that the order does not tell apart stay as they came. -/
def sortItems (ds : List Diagnostic) : List Diagnostic :=
  ds.mergeSort fun d e => order d e != .gt

def sort (b : Bag) : Bag := { b with items := sortItems b.items }

/-- Keeps the first diagnostic of each key. -/
def firstByKey {κ : Type} [BEq κ] (key : Diagnostic → κ) :
    List κ → List Diagnostic → List Diagnostic
  | _, [] => []
  | seen, d :: ds =>
    if seen.contains (key d) then firstByKey key seen ds
    else d :: firstByKey key (key d :: seen) ds

def shownPlace (d : Diagnostic) : Text := d.code.id ++ ":" ++ d.primary.render

/-- Drops diagnostics whose shown code and place were seen before. -/
def dedup (b : Bag) : Bag := { b with items := firstByKey shownPlace [] b.items }

end Bag

/-- What a reader can tell a diagnostic by, notes aside. -/
structure DiagnosticKey where
  code : Code
  severity : Severity
  primary : Span
  message : Text
  deriving DecidableEq, Repr

def Diagnostic.key (d : Diagnostic) : DiagnosticKey :=
  { code := d.code, severity := d.severity, primary := d.primary, message := d.message }

/-- Lets each diagnostic through once. -/
structure RepeatFilter where
  seen : List DiagnosticKey := []
  suppressed : Nat := 0
  deriving Repr, Inhabited

namespace RepeatFilter

/-- Is the diagnostic new? The filter knows it from now on. -/
def sift (f : RepeatFilter) (d : Diagnostic) : RepeatFilter × Bool :=
  if f.seen.contains d.key then ({ f with suppressed := f.suppressed + 1 }, false)
  else ({ f with seen := d.key :: f.seen }, true)

/-- Puts a diagnostic into a bag unless it is a repeat. -/
def add (f : RepeatFilter) (b : Bag) (d : Diagnostic) : RepeatFilter × Bag :=
  match f.sift d with
  | (f, true) => (f, b.add d)
  | (f, false) => (f, b)

end RepeatFilter

end DeclCheck
