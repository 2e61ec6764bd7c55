import DeclCheck.Proofs.Manifest.Loading
import DeclCheck.Proofs.Manifest.TypeSyntax

/-!
# Outlines

What loading makes of an entry can be told from the entry: it is skipped for an error, or kept under a name
with its formals or members. Of these again each is skipped or kept. A tree shows an outline if it has a
declaration for all that is kept, in the order of the entries, and none for what is skipped.
-/
namespace DeclCheck.Manifest

/-- What a declaration is made from. -/
inductive Role where
  | entry (kind : EntryKind)
  | formal
  deriving DecidableEq

def Role.declKind : Role → DeclKind
  | entry .var => .variable
  | entry .fn => .function
  | entry .cls => .class
  | entry .iface => .interface
  | formal => .variable

/-- What an entry or a formal comes to. -/
inductive Outline where
  | skipped (error : Diagnostic)
  | kept (role : Role) (text : Text) (parts : List Outline)

namespace Outline

def error? : Outline → Option Diagnostic
  | skipped error => some error
  | kept .. => none

def source? : Outline → Option (Role × Text)
  | skipped _ => none
  | kept role text _ => some (role, text)

mutual

/-- An outline and the outlines in it, each behind its parts. -/
def deep : Outline → List Outline
  | skipped error => [skipped error]
  | kept role text parts => allDeep parts ++ [kept role text parts]

def allDeep : List Outline → List Outline
  | [] => []
  | o :: os => o.deep ++ allDeep os

end

/-- The errors for all that is skipped. -/
def errors (os : List Outline) : List Diagnostic := (allDeep os).filterMap error?

/-- The names of all that is kept. -/
def sources (os : List Outline) : List (Role × Text) := (allDeep os).filterMap source?

theorem allDeep_append (os os' : List Outline) : allDeep (os ++ os') = allDeep os ++ allDeep os' := by
  induction os with
  | nil => rfl
  | cons o os ih => rw [List.cons_append, allDeep, ih, allDeep, List.append_assoc]

theorem errors_append (os os' : List Outline) : errors (os ++ os') = errors os ++ errors os' := by
  rw [errors, allDeep_append, List.filterMap_append]
  rfl

theorem sources_append (os os' : List Outline) : sources (os ++ os') = sources os ++ sources os' := by
  rw [sources, allDeep_append, List.filterMap_append]
  rfl

theorem allDeep_kept (role : Role) (text : Text) (parts : List Outline) :
    allDeep [kept role text parts] = allDeep parts ++ [kept role text parts] := by
  rw [allDeep, deep, allDeep, List.append_nil]

theorem errors_kept (role : Role) (text : Text) (parts : List Outline) :
    errors [kept role text parts] = errors parts := by
  rw [errors, allDeep_kept, List.filterMap_append]
  exact List.append_nil _

theorem sources_kept (role : Role) (text : Text) (parts : List Outline) :
    sources [kept role text parts] = sources parts ++ [(role, text)] := by
  rw [sources, allDeep_kept, List.filterMap_append]
  rfl

variable [Text.NormalForm]

mutual

/-- A declaration has the kind, the name and the parts of an outline. -/
inductive Shown (t : Tree) : Outline → DeclId → Prop
  | kept {role : Role} {text : Text} {parts : List Outline} {id : DeclId} {d : Decl}
      (hd : t.decl? id = some d) (hkind : d.kind = role.declKind)
      (hname : t.names.get? d.name.name = some text.normal) (hparts : AllShown t parts d.children) :
      Shown t (kept role text parts) id

/-- Declarations stand for what is kept, in the same order. -/
inductive AllShown (t : Tree) : List Outline → List DeclId → Prop
  | nil : AllShown t [] []
  | skip {error : Diagnostic} {os : List Outline} {ids : List DeclId} (h : AllShown t os ids) :
      AllShown t (skipped error :: os) ids
  | keep {o : Outline} {os : List Outline} {id : DeclId} {ids : List DeclId} (ho : Shown t o id)
      (h : AllShown t os ids) : AllShown t (o :: os) (id :: ids)

end

section

variable {t : Tree} {os : List Outline} {ids : List DeclId}

theorem AllShown.append (h : AllShown t os ids) {os' : List Outline} {ids' : List DeclId}
    (h' : AllShown t os' ids') : AllShown t (os ++ os') (ids ++ ids') := by
  induction os generalizing ids with
  | nil =>
    cases h
    exact h'
  | cons o os ih =>
    cases h with
    | skip h => exact .skip (ih h)
    | keep ho h => exact .keep ho (ih h)

/-- Each entry is kept or skipped. -/
theorem AllShown.length_eq (h : AllShown t os ids) : ids.length + (os.filterMap error?).length = os.length := by
  induction os generalizing ids with
  | nil =>
    cases h
    rfl
  | cons o os ih =>
    cases h with
    | skip h =>
      have hlength := ih h
      simp only [List.filterMap_cons, error?, List.length_cons]
      omega
    | keep ho h =>
      have hlength := ih h
      cases ho
      simp only [List.filterMap_cons, error?, List.length_cons]
      omega

mutual

theorem Shown.mem_deep {t : Tree} : {o : Outline} → {id : DeclId} → Shown t o id →
    ∀ {role : Role} {text : Text} {parts : List Outline}, kept role text parts ∈ o.deep →
      ∃ id, Shown t (kept role text parts) id
  | _, id, .kept hd hkind hname hparts, _, _, _, hmem => by
    rw [deep, List.mem_append, List.mem_singleton] at hmem
    rcases hmem with hmem | heq
    · exact hparts.mem_allDeep hmem
    · rw [heq]
      exact ⟨id, .kept hd hkind hname hparts⟩

/-- What is kept is shown at every depth. -/
theorem AllShown.mem_allDeep {t : Tree} : {os : List Outline} → {ids : List DeclId} → AllShown t os ids →
    ∀ {role : Role} {text : Text} {parts : List Outline}, kept role text parts ∈ allDeep os →
      ∃ id, Shown t (kept role text parts) id
  | _, _, .nil, _, _, _, hmem => by cases hmem
  | _, _, .skip h, _, _, _, hmem => by
    rw [allDeep, deep, List.singleton_append, List.mem_cons] at hmem
    exact h.mem_allDeep (hmem.resolve_left fun heq => by cases heq)
  | _, _, .keep ho h, _, _, _, hmem => by
    rw [allDeep, List.mem_append] at hmem
    rcases hmem with hmem | hmem
    · exact ho.mem_deep hmem
    · exact h.mem_allDeep hmem

end

end

/-- A later tree has all names, types and declarations of an earlier one. -/
structure Extends (t u : Tree) : Prop where
  grows : t.Grows u
  names : ∀ (i : NameId) (text : Text), t.names.get? i = some text → u.names.get? i = some text

omit [Text.NormalForm] in
theorem Extends.trans {t u v : Tree} (h : Extends t u) (k : Extends u v) : Extends t v :=
  ⟨h.grows.trans k.grows, fun i text hi => k.names i text (h.names i text hi)⟩

mutual

theorem Shown.extend {t u : Tree} (h : Extends t u) : {o : Outline} → {id : DeclId} → Shown t o id → Shown u o id
  | _, id, .kept (d := d) hd hkind hname hparts => by
    obtain ⟨p, hp⟩ := h.grows.decls id d hd
    exact .kept hp hkind (h.names _ _ hname) (hparts.extend h)

theorem AllShown.extend {t u : Tree} (h : Extends t u) : {os : List Outline} → {ids : List DeclId} →
    AllShown t os ids → AllShown u os ids
  | _, _, .nil => .nil
  | _, _, .skip hos => .skip (hos.extend h)
  | _, _, .keep ho hos => .keep (ho.extend h) (hos.extend h)

end

end Outline

/-! ## The outlines of entries -/

/-- The name of a formal without the blanks around it; empty if there is none. -/
def FormalEntry.text (f : FormalEntry) : Text := (f.name.map fun n => Text.trim n.value).getD []

/-- What is reported for a formal of a function that has no name. -/
def FormalEntry.nameless (file : SourceFile) (fn : Text) (number : Nat) (f : FormalEntry) : Diagnostic :=
  .error .missingName (spanOf file f.node) ("formal " ++ Text.ofNat number ++ " of '" ++ fn ++ "' has no name")

def FormalEntry.outline (file : SourceFile) (fn : Text) (number : Nat) (f : FormalEntry) : Outline :=
  if f.text.isEmpty then .skipped (f.nameless file fn number) else .kept .formal f.text []

def FormalEntry.outlines (file : SourceFile) (fn : Text) : Nat → List FormalEntry → List Outline
  | _, [] => []
  | number, f :: fs => f.outline file fn number :: outlines file fn (number + 1) fs

mutual

def Entry.outline [Text.NormalForm] (file : SourceFile) (place : Place) : Entry → Outline
  | ⟨node, keys, var, fn, cls, iface, type, returns, body, base, implements, formals, members⟩ =>
    let e : Entry :=
      ⟨node, keys, var, fn, cls, iface, type, returns, body, base, implements, formals, members⟩
    match classify file e place with
    | .error d => .skipped d
    | .ok (kind, nameNode) =>
      match entryName file e kind nameNode with
      | .error d => .skipped d
      | .ok text =>
        .kept (.entry kind) text <|
          match kind with
          | .var => []
          | .fn => FormalEntry.outlines file text.normal 1 formals
          | .cls => Entry.outlines file .inClass members
          | .iface => Entry.outlines file .inInterface members

def Entry.outlines [Text.NormalForm] (file : SourceFile) (place : Place) : List Entry → List Outline
  | [] => []
  | e :: es => e.outline file place :: Entry.outlines file place es

end

/-- What an entry of a kind contains. -/
def Entry.parts [Text.NormalForm] (file : SourceFile) (text : Text) (e : Entry) : EntryKind → List Outline
  | .var => []
  | .fn => FormalEntry.outlines file text.normal 1 e.formals
  | .cls => Entry.outlines file .inClass e.members
  | .iface => Entry.outlines file .inInterface e.members

section

variable [Text.NormalForm] {file : SourceFile} {place : Place} {e : Entry}

theorem Entry.outline_of_classify {d : Diagnostic} (h : classify file e place = .error d) :
    e.outline file place = .skipped d := by
  cases e
  simp only [Entry.outline, h]

variable {kind : EntryKind} {n : Yaml.Node} (h : classify file e place = .ok (kind, n))
include h

theorem Entry.outline_of_nameless {d : Diagnostic} (hn : entryName file e kind n = .error d) :
    e.outline file place = .skipped d := by
  cases e
  simp only [Entry.outline, h, hn]

theorem Entry.outline_of_named {text : Text} (hn : entryName file e kind n = .ok text) :
    e.outline file place = .kept (.entry kind) text (e.parts file text kind) := by
  cases e
  simp only [Entry.outline, h, hn]
  cases kind <;> rfl

end

theorem Entry.outlines_eq_map [Text.NormalForm] (file : SourceFile) (place : Place) (es : List Entry) :
    Entry.outlines file place es = es.map (Entry.outline file place) := by
  induction es with
  | nil => rfl
  | cons e es ih => rw [Entry.outlines, ih, List.map_cons]

/-- The codes of the errors for which something is skipped. -/
def skipCodes : List Code := [.unknownDeclKind, .missingName, .memberNotAllowed]

def isSkip (d : Diagnostic) : Bool := d.isError && skipCodes.contains d.code

end DeclCheck.Manifest
