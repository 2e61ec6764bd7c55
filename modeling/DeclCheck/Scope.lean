import DeclCheck.Tree

/-!
# Scopes

A scope binds names to declarations, in the order in which they were entered. The first binding of
a name stays; an index beside the bindings finds it. The table has a scope for every class,
interface and function of a tree, in the order of their numbers, and a map from owners to their
scopes.
-/
namespace DeclCheck

/-- A map from numbers to numbers: pairs of keys and values, each key once. -/
structure NumberMap where
  pairs : List (Nat × Nat) := []
  nodup : (pairs.map (·.1)).Nodup := by exact List.nodup_nil
  deriving DecidableEq, Repr

namespace NumberMap

def get? (m : NumberMap) (key : Nat) : Option Nat := m.pairs.lookup key

/-- The map with a value for a key; a value that was there before is gone. -/
def insert (m : NumberMap) (key value : Nat) : NumberMap where
  pairs := (key, value) :: m.pairs.filter (·.1 != key)
  nodup := by
    have hsub := List.filter_sublist (p := fun entry : Nat × Nat => entry.1 != key) (l := m.pairs)
    refine List.nodup_cons.mpr ⟨?_, m.nodup.sublist (hsub.map _)⟩
    simp

def size (m : NumberMap) : Nat := m.pairs.length

end NumberMap

abbrev ScopeId := Nat

inductive ScopeKind where
  | invalid : ScopeKind
  | class : ScopeKind
  | interface : ScopeKind
  | function : ScopeKind
  deriving DecidableEq, Repr, Inhabited

namespace ScopeKind

def label : ScopeKind → Text
  | invalid => "invalid"
  | .class => "class"
  | interface => "interface"
  | function => "function"

/-- The kind of scope that a declaration owns; variables own none. -/
def ofDecl : DeclKind → ScopeKind
  | .class => .class
  | .interface => interface
  | .function => function
  | .variable => invalid

end ScopeKind

structure Binding where
  name : NameId
  decl : DeclId
  deriving DecidableEq, Repr, Inhabited

structure Scope where
  kind : ScopeKind
  owner : DeclId
  /-- The scope of the declaration around the owner, or zero. -/
  parent : ScopeId := 0
  span : Span := {}
  /-- The declaration of each name that is bound. -/
  index : NumberMap := {}
  entries : List Binding := []
  /-- Was the scope handed out to be filled? -/
  filled : Bool := false
  deriving Repr, Inhabited

namespace Scope

def lookup? (s : Scope) (name : NameId) : Option DeclId := s.index.get? name

def enter (s : Scope) (name : NameId) (decl : DeclId) : Scope :=
  if (s.lookup? name).isSome then s
  else { s with index := s.index.insert name decl, entries := s.entries ++ [{ name, decl }] }

def size (s : Scope) : Nat := s.entries.length

end Scope

/-- The names of the top level. The first declaration of a name stays. -/
structure Globals where
  entries : List Binding := []
  deriving Repr, Inhabited

namespace Globals

def lookup? (g : Globals) (name : NameId) : Option DeclId :=
  (g.entries.find? (·.name == name)).map (·.decl)

/-- Declares a name. If it is taken, the declaration that has it. -/
def declare (g : Globals) (name : NameId) (decl : DeclId) : Globals × Except DeclId Unit :=
  match g.lookup? name with
  | some prev => (g, .error prev)
  | none => ({ entries := g.entries ++ [{ name, decl }] }, .ok ())

def decls (g : Globals) : List DeclId := g.entries.map (·.decl)

end Globals

/-- The scopes of a tree, in the order of their numbers. -/
structure ScopeTable where
  scopes : Array Scope := #[]
  /-- The number of the scope that each owner has. -/
  owners : NumberMap := {}
  deriving Repr, Inhabited

inductive ScopeError where
  | noScope (decl : DeclId)
  | filledTwice (decl : DeclId)
  deriving DecidableEq, Repr

def ScopeError.message : ScopeError → Text
  | noScope d => "symbols: decl " ++ Text.ofNat d ++ " owns no scope"
  | filledTwice d => "symbols: scope of decl " ++ Text.ofNat d ++ " populated twice"

namespace ScopeTable

def scope? (t : ScopeTable) (id : ScopeId) : Option Scope := numbered? t.scopes id

def idOf (t : ScopeTable) (decl : DeclId) : ScopeId := (t.owners.get? decl).getD 0

def scopeOf? (t : ScopeTable) (decl : DeclId) : Option Scope := t.scope? (t.idOf decl)

def addFor (t : ScopeTable) (id : DeclId) (d : Decl) : ScopeTable :=
  if d.kind = .variable then t
  else
    { scopes := t.scopes.push { kind := .ofDecl d.kind, owner := id, span := d.span }
      owners := t.owners.insert id (t.scopes.size + 1) }

/-- An empty scope for each declaration that owns one, without parents. -/
def unlinked (tree : Tree) : ScopeTable :=
  tree.decls.toList.zipIdx.foldl (fun t entry => t.addFor (entry.2 + 1) entry.1) {}

/-- Links the scope of an owner to that of the declaration around the owner. -/
def link (tree : Tree) (t : ScopeTable) (owner : DeclId) (id : ScopeId) : ScopeTable :=
  match tree.decl? owner with
  | some d =>
    if d.parent = 0 then t
    else
      { t with scopes := t.scopes.modify (id - 1) fun s => { s with parent := t.idOf d.parent } }
  | none => t

def ofTree (tree : Tree) : ScopeTable :=
  let bare := unlinked tree
  bare.owners.pairs.foldl (fun t entry => t.link tree entry.1 entry.2) bare

def modifyScope (t : ScopeTable) (decl : DeclId) (f : Scope → Scope) : ScopeTable :=
  match t.idOf decl with
  | 0 => t
  | i + 1 => { t with scopes := t.scopes.modify i f }

/-- Hands out the scope of a declaration to be filled. That happens once. -/
def begin (t : ScopeTable) (decl : DeclId) : Except ScopeError ScopeTable :=
  match t.scopeOf? decl with
  | none => .error (.noScope decl)
  | some s =>
    if s.filled then .error (.filledTwice decl)
    else .ok (t.modifyScope decl fun s => { s with filled := true })

/-- Binds a name in the scope of a declaration unless it is bound there. -/
def enter (t : ScopeTable) (owner : DeclId) (name : NameId) (decl : DeclId) : ScopeTable :=
  t.modifyScope owner (·.enter name decl)

/-- Looks a name up in a scope and in those around it, at most `fuel` of them. -/
def resolveWithin (t : ScopeTable) (name : NameId) : Nat → ScopeId → Option DeclId
  | 0, _ => none
  | fuel + 1, id =>
    match t.scope? id with
    | none => none
    | some s =>
      match s.lookup? name with
      | some d => some d
      | none => t.resolveWithin name fuel s.parent

/-- Looks a name up in a scope, in those around it and at the top level. -/
def resolve? (t : ScopeTable) (scope : ScopeId) (name : NameId) (globals : Option Globals) :
    Option DeclId :=
  match t.resolveWithin name (t.scopes.size + 1) scope with
  | some d => some d
  | none => globals.bind (·.lookup? name)

/-! ## Validity -/

inductive Issue where
  | invalidKind (scope : ScopeId)
  | unknownOwner (scope : ScopeId) (owner : DeclId)
  | wrongKind (scope : ScopeId) (kind : ScopeKind) (owner : DeclId) (ownerKind : DeclKind)
  | missingBacklink (scope : ScopeId) (owner : DeclId)
  | wrongParent (scope parent : ScopeId) (decl : DeclId)
  | repeatedName (scope : ScopeId) (entries names : Nat)
  | notIndexed (scope : ScopeId) (decl : DeclId) (name : NameId)
  | unknownDecl (scope : ScopeId) (decl : DeclId)
  deriving DecidableEq, Repr

def Issue.message : Issue → Text
  | invalidKind s => "scope " ++ Text.ofNat s ++ " has invalid kind"
  | unknownOwner s o => "scope " ++ Text.ofNat s ++ " has unknown owner " ++ Text.ofNat o
  | wrongKind s k o ok =>
    "scope " ++ Text.ofNat s ++ " is " ++ k.label ++ " but owner " ++ Text.ofNat o ++ " is a " ++
      ok.label
  | missingBacklink s o =>
    "scope " ++ Text.ofNat s ++ " owner " ++ Text.ofNat o ++ " missing backlink"
  | wrongParent s p d =>
    "scope " ++ Text.ofNat s ++ " parent " ++ Text.ofNat p ++ " does not belong to decl " ++
      Text.ofNat d
  | repeatedName s es ns =>
    "scope " ++ Text.ofNat s ++ ": " ++ Text.ofNat es ++ " entries but " ++ Text.ofNat ns ++ " names"
  | notIndexed s d n =>
    "scope " ++ Text.ofNat s ++ ": entry " ++ Text.ofNat d ++ " for name " ++ Text.ofNat n ++
      " not indexed"
  | unknownDecl s d =>
    "scope " ++ Text.ofNat s ++ ": entry points to unknown decl " ++ Text.ofNat d

def issueIf (b : Bool) (i : Issue) : List Issue := if b then [i] else []

def entryIssues (tree : Tree) (id : ScopeId) (s : Scope) : List Issue :=
  s.entries.flatMap fun e =>
    issueIf (s.lookup? e.name != some e.decl) (.notIndexed id e.decl e.name) ++
    issueIf (tree.decl? e.decl).isNone (.unknownDecl id e.decl)

/-- Does the parent of a scope belong to the parent of its owner? -/
def parentFits (t : ScopeTable) (s : Scope) (owner : Decl) : Bool :=
  s.parent == 0 ||
    match t.scope? s.parent with
    | some p => p.owner == owner.parent
    | none => false

/-- The issues of a scope. An unknown owner hides what would be asked of it. -/
def scopeIssues (t : ScopeTable) (tree : Tree) (id : ScopeId) (s : Scope) : List Issue :=
  issueIf (s.kind == .invalid) (.invalidKind id) ++
    match tree.decl? s.owner with
    | none => [.unknownOwner id s.owner]
    | some d =>
      issueIf (ScopeKind.ofDecl d.kind != s.kind) (.wrongKind id s.kind s.owner d.kind) ++
      issueIf (t.idOf s.owner != id) (.missingBacklink id s.owner) ++
      issueIf (!t.parentFits s d) (.wrongParent id s.parent d.parent) ++
      issueIf (s.entries.length != s.index.size)
        (.repeatedName id s.entries.length s.index.size) ++
      entryIssues tree id s

def issues (t : ScopeTable) (tree : Tree) : List Issue :=
  t.scopes.toList.zipIdx.flatMap fun (s, i) => t.scopeIssues tree (i + 1) s

def describeIssues? : List Issue → Option Text
  | [] => none
  | is => some (Text.join [Text.newline] (is.map Issue.message))

end ScopeTable

end DeclCheck
