import DeclCheck.Check.Analysis

/-!
# Subtypes

A class may be used where another class is expected if some class on its chain of bases names
that class as its base, and where an interface is expected if some class on the chain lists it.
-/
namespace DeclCheck

namespace Program

def namesType (p : Program) (type : TypeExprId) (name : NameId) : Bool :=
  match p.tree.namedType? type with
  | some ident => ident.name == name
  | none => false

/-- Does a class, or a base of it, name the goal? At most `fuel` classes are looked at, none of
which was visited. -/
def reaches (p : Program) (goal : Decl) : Nat → List DeclId → DeclId → Bool
  | 0, _, _ => false
  | fuel + 1, visited, id =>
    match p.tree.class? id with
    | none => false
    | some c =>
      if visited.contains id then false
      else if goal.kind == .interface && c.implements.any (p.namesType · goal.name.name) then true
      else if c.base = 0 then false
      else if goal.kind == .class && p.namesType c.base goal.name.name then true
      else
        match p.resolveType? c.base with
        | none => false
        | some base => p.reaches goal fuel (id :: visited) base

/-- May a class be used where a class or an interface is expected? -/
def isCompatible (p : Program) (cls target : DeclId) : Bool :=
  match p.tree.decl? target with
  | none => false
  | some goal =>
    if goal.kind.namesType then
      p.reaches goal (p.tree.decls.size + 1) [] cls
    else false

end Program

end DeclCheck
