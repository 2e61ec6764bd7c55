import DeclCheck.Check.Lowering
import DeclCheck.Diagnostic
import DeclCheck.Scope
import DeclCheck.Trace

/-!
# Analysis of declarations

Every class, interface and function of the top level and of its classes gets its scope filled, and
what breaks a rule is reported:

* names do not clash, neither in one list of members nor between a class and its base classes;
* an override has the signature of what it overrides;
* a class has the methods of its interfaces;
* named types, bases and interfaces are declared.

A base class is found by name. The chain of bases ends where there is no further base, and it is
cut where the base is unknown, is no class or was met before.
-/
namespace DeclCheck

inductive LookupKind where
  | type : LookupKind
  | class : LookupKind
  | interface : LookupKind
  deriving DecidableEq, Repr

namespace LookupKind

def label : LookupKind → Text
  | type => "type"
  | .class => "class"
  | interface => "interface"

/-- The words for a number of a kind; numbers above two are any name. -/
def labelOf (n : UInt8) : Text :=
  match n.toNat with
  | 0 => label type
  | 1 => label .class
  | 2 => label interface
  | _ => "name"

end LookupKind

/-- Why an analysis cannot go on. None of these arises from a well-formed tree. -/
inductive CheckFault where
  /-- A number without a declaration was followed. -/
  | dangling
  | unknownDecl (id : DeclId)
  | incompleteFunction (name : Text) (state : FunctionState)
  | scope (error : ScopeError)
  deriving DecidableEq, Repr

/-- The fault in words; a dangling number has none. -/
def CheckFault.message? : CheckFault → Option Text
  | dangling => none
  | unknownDecl id => some ("sema: unknown decl " ++ Text.ofNat id)
  | incompleteFunction name state =>
    some ("sema: function " ++ name.quote ++ " analyzed in state " ++ state.label)
  | scope e => some e.message

/-- A body that is handed over to be checked, with the scopes as they were then. -/
structure BodyCall where
  function : DeclId
  body : BlockId
  table : ScopeTable
  deriving Repr, Inhabited

structure Analysis where
  table : ScopeTable := {}
  lowering : Lowering := {}
  diagnostics : Array Diagnostic := #[]
  bodies : Array BodyCall := #[]
  moments : Array Trace.Moment := #[]
  /-- How many spans were begun. -/
  spans : Nat := 0
  /-- The span that further ones and points are told to be in. -/
  parent : Nat := 0
  deriving Repr, Inhabited

/-- A tree and what the names of its top level stand for. -/
structure Program where
  tree : Tree
  globals : Globals
  deriving Repr, Inhabited

/-- Steps of an analysis. What was found before a fault stays found. -/
abbrev AnalysisM := ExceptT CheckFault (StateM Analysis)

/-! ## The chain of bases -/

/-- Why a chain of bases ends. -/
inductive ChainEnd where
  | root
  /-- The base is not a named type. -/
  | unnamed
  | undeclared (ident : Ident)
  | notClass (decl : DeclId)
  | cycle (decl : DeclId)
  deriving DecidableEq, Repr

namespace Program

def resolveType? (p : Program) (type : TypeExprId) : Option DeclId :=
  (p.tree.namedType? type).bind fun ident => p.globals.lookup? ident.name

/-- The bases from a written base upwards, at most `fuel` of them, none of which was visited. -/
def climb (p : Program) : Nat → List DeclId → TypeExprId → List DeclId × ChainEnd
  | 0, _, _ => ([], .root)
  | fuel + 1, visited, base =>
    if base = 0 then ([], .root)
    else
      match p.tree.namedType? base with
      | none => ([], .unnamed)
      | some ident =>
        match p.globals.lookup? ident.name with
        | none => ([], .undeclared ident)
        | some id =>
          match p.tree.class? id with
          | none => ([], .notClass id)
          | some c =>
            if visited.contains id then ([], .cycle id)
            else
              let (rest, stop) := p.climb fuel (id :: visited) c.base
              (id :: rest, stop)

/-- The proper bases of a class, nearest first, and why there are no more. A base is met once, so
there are no more of them than declarations. -/
def bases (p : Program) (id : DeclId) (c : ClassDecl) : List DeclId × ChainEnd :=
  p.climb (p.tree.decls.size + 1) [id] c.base

end Program

/-! ## Reports -/

namespace AnalysisM

def decl (p : Program) (id : DeclId) : AnalysisM Decl :=
  match p.tree.decl? id with
  | some d => pure d
  | none => throw .dangling

def report (d : Diagnostic) : AnalysisM Unit :=
  modify fun a => { a with diagnostics := a.diagnostics.push d }

def point (name detail : Text) : AnalysisM Unit :=
  modify fun a => { a with moments := a.moments.push (.point .node name detail a.parent) }

def beginSpan (scope : Trace.EventScope) (name : Text) : AnalysisM Nat :=
  modifyGet fun a =>
    (a.spans + 1,
      { a with spans := a.spans + 1, moments := a.moments.push (.begins scope name a.parent) })

def noteFact (span : Nat) (key value : Text) : AnalysisM Unit :=
  modify fun a => { a with moments := a.moments.push (.notes span key value) }

def endSpan (span : Nat) : AnalysisM Unit :=
  modify fun a => { a with moments := a.moments.push (.ends span []) }

def setParent (span : Nat) : AnalysisM Unit := modify fun a => { a with parent := span }

/-- Runs steps inside a span of their own. However they end, the span ends after them and the parent
is as before. -/
def inSpan (scope : Trace.EventScope) (name : Text) (steps : Nat → AnalysisM Unit) :
    AnalysisM Unit := do
  let span ← beginSpan scope name
  let saved := (← get).parent
  setParent span
  try steps span
  finally
    setParent saved
    endSpan span

def signature (p : Program) (id : DeclId) : AnalysisM (Option Signature) :=
  modifyGet fun a =>
    let (lowering, sig) := a.lowering.signature p.tree id
    (sig, { a with lowering })

def sameSignature (p : Program) (f g : DeclId) : AnalysisM Bool :=
  modifyGet fun a =>
    let (lowering, same) := a.lowering.sameSignature p.tree f g
    (same, { a with lowering })

def reportConflict (p : Program) (id prev : DeclId) : AnalysisM Unit := do
  let d ← decl p id
  let old ← decl p prev
  report ((Diagnostic.error .declConflict d.name.span
    ("declaration of '" ++ p.tree.nameOf id ++ "' conflicts with previous " ++ old.kind.label ++
      " declaration")).withNote old.name.span "previous declaration here")

/-- Reports that a function does not have the signature of what it overrides. -/
def reportOverride (p : Program) (id base : DeclId) : AnalysisM Unit := do
  let d ← decl p id
  let problem := Diagnostic.error .overrideMismatch d.name.span
    ("method '" ++ p.tree.nameOf id ++ "' must match inherited type signature")
  match ← signature p base with
  | none => report problem
  | some sig =>
    let b ← decl p base
    let store := (← get).lowering.store
    report (problem.withNote b.name.span
      ("overridden declaration here: " ++ store.signatureLabel p.tree.names sig))

/-- Reports that a name is not declared as what it was looked up for. -/
def reportNotDeclared (p : Program) (ident : Ident) (kind : LookupKind) : AnalysisM Unit :=
  report (Diagnostic.error .notDeclared ident.span
    ("no declaration found for " ++ kind.label ++ " '" ++ p.tree.names.get ident.name ++ "'"))

def reportNotImplemented (p : Program) (cls : DeclId) (iface : Ident) (method : DeclId) :
    AnalysisM Unit := do
  let m ← decl p method
  report ((Diagnostic.error .notImplemented iface.span
    ("class '" ++ p.tree.nameOf cls ++ "' does not implement entire interface '" ++
      p.tree.names.get iface.name ++ "': missing '" ++ p.tree.nameOf method ++ "'")).withNote
    m.name.span "required method declared here")

/-! ## Scopes -/

def beginScope (id : DeclId) : AnalysisM Unit := do
  match (← get).table.begin id with
  | .ok table => modify fun a => { a with table }
  | .error e => throw (.scope e)

/-- The declaration that a name stands for in the scope of a declaration. -/
def lookup? (owner : DeclId) (name : NameId) : AnalysisM (Option DeclId) := do
  return ((← get).table.scopeOf? owner).bind (·.lookup? name)

/-- Binds a name in the scope of a declaration unless it is bound there. -/
def bind (owner : DeclId) (name : NameId) (id : DeclId) : AnalysisM Unit :=
  modify fun a => { a with table := a.table.enter owner name id }

/-- Enters a declaration in the scope of another, and gives the one that has its name already. -/
def enter? (p : Program) (owner id : DeclId) : AnalysisM (Option DeclId) := do
  let d ← decl p id
  match ← lookup? owner d.name.name with
  | some prev => return some prev
  | none =>
    AnalysisM.bind owner d.name.name id
    return none

def enterMember (p : Program) (owner id : DeclId) : AnalysisM Unit := do
  match ← enter? p owner id with
  | some prev => reportConflict p id prev
  | none => pure ()

/-! ## Rules -/

/-- The name at the bottom of a written type, if it is a named type or an array of such,
looking through at most `fuel` arrays. -/
def baseName? (tree : Tree) : Nat → TypeExprId → Option Ident
  | 0, _ => none
  | fuel + 1, id =>
    match tree.type? id with
    | some (.array elem _) => baseName? tree fuel elem
    | some (.named ident) => some ident
    | _ => none

/-- Named types stand for a class or an interface. -/
def validateType (p : Program) (id : TypeExprId) : AnalysisM Unit := do
  match baseName? p.tree (p.tree.types.size + 1) id with
  | none => pure ()
  | some ident =>
    match p.globals.lookup? ident.name with
    | none => reportNotDeclared p ident .type
    | some target =>
      let d ← decl p target
      if d.kind.namesType then pure ()
      else reportNotDeclared p ident .type

/-- Only a function overrides a function, and with the same signature. -/
def checkInherited (p : Program) (entry inherited : DeclId) : AnalysisM Unit := do
  let e ← decl p entry
  let i ← decl p inherited
  if i.kind = .variable || e.kind ≠ i.kind then reportConflict p entry inherited
  else if ← sameSignature p entry inherited then pure ()
  else reportOverride p entry inherited

/-- Compares the members of a base with what has their names already, and gives those whose names
are free. -/
def shadowed (p : Program) (owner : DeclId) : List DeclId → AnalysisM (List DeclId)
  | [] => return []
  | m :: ms => do
    let d ← decl p m
    match ← lookup? owner d.name.name with
    | none =>
      let rest ← shadowed p owner ms
      return m :: rest
    | some entry =>
      checkInherited p entry m
      shadowed p owner ms

def inheritFrom (p : Program) (owner base : DeclId) : AnalysisM Unit := do
  let free ← shadowed p owner (p.tree.children base)
  for m in free do
    let _ ← enter? p owner m

def reportChainEnd (p : Program) : ChainEnd → AnalysisM Unit
  | .root | .unnamed => pure ()
  | .undeclared ident => reportNotDeclared p ident .class
  | .notClass id => point "extends_stop" ("not a class: " ++ p.tree.nameOf id)
  | .cycle id => point "extends_stop" ("cycle at " ++ p.tree.nameOf id)

/-- Takes the members of all bases into the scope of a class, nearest first. -/
def inherit (p : Program) (id : DeclId) (c : ClassDecl) : AnalysisM Unit := do
  let (bases, stop) := p.bases id c
  for base in bases do
    inheritFrom p id base
  reportChainEnd p stop

/-- A class has a method of an interface, with the same signature. -/
def checkMethod (p : Program) (cls : DeclId) (iface : Ident) (method : DeclId) :
    AnalysisM Unit := do
  let m ← decl p method
  match ← lookup? cls m.name.name with
  | none => reportNotImplemented p cls iface method
  | some entry =>
    let e ← decl p entry
    if e.kind ≠ .function then reportConflict p method entry
    else if ← sameSignature p entry method then pure ()
    else reportOverride p entry method

/-- A class has all methods of an interface that it implements. -/
def conform (p : Program) (cls : DeclId) (type : TypeExprId) : AnalysisM Unit := do
  match p.tree.namedType? type with
  | none => pure ()
  | some ident =>
    match (p.globals.lookup? ident.name).bind p.tree.interface? with
    | none => reportNotDeclared p ident .interface
    | some methods =>
      for m in methods do
        checkMethod p cls ident m

/-! ## Declarations -/

/-- Fills the scope of a class from itself, its members and its bases, and checks its interfaces. -/
def declareClass (p : Program) (id : DeclId) (name : NameId) (c : ClassDecl) : AnalysisM Unit := do
  beginScope id
  AnalysisM.bind id name id
  for m in c.members do
    enterMember p id m
  inherit p id c
  for type in c.implements do
    conform p id type

/-- Analyzes a declaration and those inside it, to a given depth. -/
def analyzeWithin (p : Program) : Nat → DeclId → AnalysisM Unit
  | 0, _ => pure ()
  | depth + 1, id => do
    match p.tree.decl? id with
    | none => throw (.unknownDecl id)
    | some d =>
      inSpan .node (d.kind.label ++ " " ++ p.tree.nameOf id) fun _ => do
        match d.subject with
        | .variable type => validateType p type
        | .function f =>
          if f.state ≠ .complete then throw (.incompleteFunction (p.tree.nameOf id) f.state)
          beginScope id
          for formal in f.formals do
            match ← enter? p id formal with
            | some prev => reportConflict p formal prev
            | none => analyzeWithin p depth formal
          validateType p f.result
          if f.body ≠ 0 then
            modify fun a => { a with bodies := a.bodies.push ⟨id, f.body, a.table⟩ }
        | .interface members =>
          beginScope id
          for m in members do
            enterMember p id m
        | .class c =>
          declareClass p id d.name.name c
          for m in c.members do
            analyzeWithin p depth m

/-- Analyzes a declaration. Each level below a class or function fills one more scope, so the depth
is less than the number of declarations. -/
def analyze (p : Program) (id : DeclId) : AnalysisM Unit :=
  analyzeWithin p (p.tree.decls.size + 2) id

def analyzeAll (p : Program) (top : TopLevel) (reached : Option Nat) : AnalysisM Unit :=
  inSpan .pass "sema" fun span => do
    for id in (match reached with | some n => top.decls.take n | none => top.decls) do
      analyze p id
    noteFact span "decls" (Text.ofNat top.decls.length)

end AnalysisM

/-! ## Names of the top level -/

/-- Declares the names of a list of top-level declarations, and reports those that are taken. -/
def Globals.collectFrom (tree : Tree) :
    List DeclId → Globals → Array Diagnostic → Globals × Array Diagnostic × Except CheckFault Unit
  | [], g, ds => (g, ds, .ok ())
  | id :: ids, g, ds =>
    match tree.decl? id with
    | none => (g, ds, .error .dangling)
    | some d =>
      match g.declare d.name.name id with
      | (g, .ok ()) => collectFrom tree ids g ds
      | (g, .error prev) =>
        match tree.decl? prev with
        | none => (g, ds, .error .dangling)
        | some old =>
          let problem := Diagnostic.error .declConflict d.name.span
            ("declaration of '" ++ tree.nameOf id ++ "' conflicts with previous " ++
              old.kind.label ++ " declaration")
          collectFrom tree ids g
            (ds.push (problem.withNote old.name.span "previous declaration here"))

/-- The names of a unit. A unit that is not there has none. -/
def Globals.collect (tree : Tree) (unit : UnitId) :
    Globals × Array Diagnostic × Except CheckFault Unit :=
  match tree.unit? unit with
  | none => ({}, #[], .ok ())
  | some u => collectFrom tree u.decls {} #[]

/-! ## Checking a unit -/

structure CheckResult where
  globals : Globals
  analysis : Analysis
  fault : Option CheckFault := none
  deriving Repr, Inhabited

/-- Checks a unit against names of the top level. If `reached` is given, the check is canceled
after that many declarations. -/
def checkWith (tree : Tree) (unit : UnitId) (globals : Globals) (reported : Array Diagnostic)
    (reached : Option Nat) : CheckResult :=
  let start : Analysis := { table := .ofTree tree, diagnostics := reported }
  match tree.unit? unit with
  | none => { globals, analysis := start }
  | some u =>
    match (AnalysisM.analyzeAll ⟨tree, globals⟩ u reached).run.run start with
    | (.ok (), analysis) => { globals, analysis }
    | (.error fault, analysis) => { globals, analysis, fault := some fault }

/-- Checks a unit. Names of the top level that are not given are collected first. -/
def check (tree : Tree) (unit : UnitId) (registry : Option Globals) (reached : Option Nat) :
    CheckResult :=
  match registry with
  | some globals => checkWith tree unit globals #[] reached
  | none =>
    match Globals.collect tree unit with
    | (globals, ds, .ok ()) => checkWith tree unit globals ds reached
    | (globals, ds, .error fault) =>
      { globals, analysis := { diagnostics := ds }, fault := some fault }

end DeclCheck
