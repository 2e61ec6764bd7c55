import DeclCheck.Text.Base64
import DeclCheck.Text.Quoted
import DeclCheck.Yaml.Node

/-!
# Entries of a manifest

A manifest is a mapping with the one key `decls`, a list of entries. An entry is a mapping that
declares one thing; it is kept with all its keys, and what the keys must be for that thing is
asked later.
-/
namespace DeclCheck.Manifest

open Yaml

structure FormalEntry where
  node : Node
  name : Option Node := none
  type : Option Node := none
  deriving Repr, Inhabited

/-- A declaration as it is written: the value of each known key, all aliases followed, and the
keys in order. -/
structure Entry where
  node : Node
  keys : List Node := []
  var : Option Node := none
  fn : Option Node := none
  cls : Option Node := none
  iface : Option Node := none
  type : Option Node := none
  returns : Option Node := none
  body : Option Node := none
  base : Option Node := none
  implements : Option Node := none
  formals : List FormalEntry := []
  members : List Entry := []
  deriving Repr, Inhabited

inductive EntryError where
  | notMapping (line : Nat) (tag : Text)
  | repeatedKey (line : Nat) (key : Text)
  | notList (line : Nat) (key : Text)
  | formalNotMapping (line : Nat)
  | formalKey (line : Nat) (key : Text)
  deriving DecidableEq, Repr

def EntryError.message : EntryError → Text
  | notMapping line tag =>
    "line " ++ Text.ofNat line ++ ": declaration must be a mapping, found " ++ tag
  | repeatedKey line key =>
    "line " ++ Text.ofNat line ++ ": key " ++ key.quote ++ " already defined"
  | notList line key => "line " ++ Text.ofNat line ++ ": " ++ key ++ " must be a list"
  | formalNotMapping line =>
    "line " ++ Text.ofNat line ++ ": formal must be a mapping with name and type"
  | formalKey line key =>
    "line " ++ Text.ofNat line ++ ": formal accepts only name and type, found " ++ key.quote

/-! ## Formals -/

/-- Reads the keys of a formal; a later value of a key takes the place of an earlier one. -/
def FormalEntry.ofPairs : FormalEntry → List (Node × Node) → Except EntryError FormalEntry
  | f, [] => .ok f
  | f, (k, v) :: rest =>
    if k.value == Text.ofString "name" then ofPairs { f with name := some v.resolved } rest
    else if k.value == Text.ofString "type" then ofPairs { f with type := some v.resolved } rest
    else .error (.formalKey k.place.line k.value)

def FormalEntry.ofNode (n : Node) : Except EntryError FormalEntry :=
  match n.resolved with
  | .mapping p t pairs => ofPairs { node := .mapping p t pairs } pairs
  | m => .error (.formalNotMapping m.place.line)

def listItems (key : Text) (n : Node) : Except EntryError (List Node) :=
  match n.resolved with
  | .sequence _ _ items => .ok items
  | m => if m.isNull then .ok [] else .error (.notList m.place.line key)

def FormalEntry.listOf (n : Node) : Except EntryError (List FormalEntry) := do
  (← listItems "formals" n).mapM FormalEntry.ofNode

/-! ## Entries -/

/-- The entry with the value of a key, other than the keys that hold lists. Unknown keys are only
kept among the keys. -/
def Entry.set (e : Entry) (key : Text) (v : Node) : Entry :=
  if key == Text.ofString "var" then { e with var := some v }
  else if key == Text.ofString "fn" then { e with fn := some v }
  else if key == Text.ofString "class" then { e with cls := some v }
  else if key == Text.ofString "interface" then { e with iface := some v }
  else if key == Text.ofString "type" then { e with type := some v }
  else if key == Text.ofString "returns" then { e with returns := some v }
  else if key == Text.ofString "body" then { e with body := some v }
  else if key == Text.ofString "extends" then { e with base := some v }
  else if key == Text.ofString "implements" then { e with implements := some v }
  else e

mutual

def Entry.ofNode : Node → Except EntryError Entry
  | .reference _ _ target => Entry.ofNode target
  | .mapping p t pairs => Entry.ofPairs { node := .mapping p t pairs } pairs
  | .scalar p t _ _ => .error (.notMapping p.line t)
  | .sequence p t _ => .error (.notMapping p.line t)

def Entry.ofPairs : Entry → List (Node × Node) → Except EntryError Entry
  | e, [] => .ok e
  | e, (k, v) :: rest =>
    if e.keys.any (·.value == k.value) then .error (.repeatedKey k.place.line k.value)
    else
      let e := { e with keys := e.keys ++ [k] }
      if k.value == Text.ofString "formals" then do
        let formals ← FormalEntry.listOf v
        Entry.ofPairs { e with formals } rest
      else if k.value == Text.ofString "members" then do
        let members ← Entry.listOf v
        Entry.ofPairs { e with members } rest
      else Entry.ofPairs (e.set k.value v.resolved) rest

def Entry.listOf : Node → Except EntryError (List Entry)
  | .reference _ _ target => Entry.listOf target
  | .sequence _ _ items => Entry.ofItems items
  | .scalar p t _ _ => if t == Tag.null then .ok [] else .error (.notList p.line "members")
  | .mapping p _ _ => .error (.notList p.line "members")

def Entry.ofItems : List Node → Except EntryError (List Entry)
  | [] => .ok []
  | n :: rest => do
    let e ← Entry.ofNode n
    let es ← Entry.ofItems rest
    return e :: es

end

/-! ## The whole manifest -/

/-- A value does not have the shape that its place asks for. -/
inductive ShapeError where
  | repeatedKey (line : Nat) (key : Text) (firstLine : Nat)
  | unknownKey (line : Nat) (key : Text)
  | keySetTwice (line : Nat) (key : Text)
  /-- The tag and the value of a node that cannot be taken as what it should be. -/
  | mismatch (line : Nat) (tag value wanted : Text)
  deriving DecidableEq, Repr

/-- A value shown after its tag: nothing for collections, and no more than ten bytes. -/
def shownValue (tag value : Text) : Text :=
  if tag == Tag.seq || tag == Tag.map then value
  else if 10 < value.length then " `" ++ value.take 7 ++ "...`"
  else " `" ++ value ++ "`"

def ShapeError.message : ShapeError → Text
  | repeatedKey line key first =>
    "line " ++ Text.ofNat line ++ ": mapping key " ++ key.quote ++ " already defined at line " ++
      Text.ofNat first
  | unknownKey line key =>
    "line " ++ Text.ofNat line ++ ": field " ++ key ++ " not found in type loader.manifestYAML"
  | keySetTwice line key =>
    "line " ++ Text.ofNat line ++ ": field " ++ key ++ " already set in type loader.manifestYAML"
  | mismatch line tag value wanted =>
    "line " ++ Text.ofNat line ++ ": cannot unmarshal " ++ tag ++ shownValue tag value ++
      " into " ++ wanted

inductive DecodeError where
  | document (failure : Failure)
  | tag (mismatch : TagMismatch)
  | base64
  | mergeValue
  | entry (error : EntryError)
  | shape (errors : List ShapeError)
  deriving DecidableEq, Repr

def DecodeError.message : DecodeError → Text
  | document f => f.message
  | tag m => m.message
  | base64 => "yaml: !!binary value contains invalid base64 data"
  | mergeValue => "yaml: map merge requires map or sequence of maps as the value"
  | entry e => e.message
  | shape es =>
    let sep := [Text.newline] ++ Text.spaces 2
    "yaml: unmarshal errors:" ++ sep ++ Text.join sep (es.map ShapeError.message)

def readScalar (tag value : Text) : Except DecodeError Reading :=
  if tag == Tag.str then .ok (.text value)
  else
    match Reading.under tag value with
    | .error m => .error (.tag m)
    | .ok (t, r) =>
      if t == Tag.binary then
        match Text.ofBase64? value with
        | some bytes => .ok (.text bytes)
        | none => .error .base64
      else .ok r

/-- What was read of a manifest, and what was wrong on the way. -/
structure Reader where
  decls : List Entry := []
  declsSet : Bool := false
  errors : List ShapeError := []

def Reader.wrong (r : Reader) (e : ShapeError) : Reader := { r with errors := r.errors ++ [e] }

def mismatchOf (n : Node) (wanted : Text) : ShapeError :=
  .mismatch n.place.line n.tag n.value wanted

/-- Two keys are alike if they are of one shape and have one text. -/
def alike : Node → Node → Bool
  | .scalar _ _ _ v, .scalar _ _ _ w => v == w
  | .sequence .., .sequence .. => true
  | .mapping .., .mapping .. => true
  | .reference _ v _, .reference _ w _ => v == w
  | _, _ => false

/-- The keys of a mapping that repeat an earlier one, each with each. -/
def repeatedKeys : List Node → List ShapeError
  | [] => []
  | k :: ks =>
    (ks.filter (alike k)).map (fun l => .repeatedKey l.place.line l.value k.place.line) ++
      repeatedKeys ks

/-- The text of a key. Null keys have none, and collections are no keys. -/
def keyText (r : Reader) (k : Node) : Except DecodeError (Reader × Option Text) :=
  match k.resolved with
  | .scalar _ tag _ value => do
    match ← readScalar tag value with
    | .null => return (r, none)
    | .text t => return (r, some t)
    | _ => return (r, some value)
  | .mapping p tag pairs =>
    let repeated := repeatedKeys (pairs.map (·.1))
    if repeated.isEmpty then .ok (r.wrong (mismatchOf (.mapping p tag pairs) "string"), none)
    else .ok ({ r with errors := r.errors ++ repeated }, none)
  | n => .ok (r.wrong (mismatchOf n "string"), none)

/-- Is the key the one that merges other mappings into its own? -/
def isMergeKey : Node → Bool
  | .scalar _ tag _ value => value == Text.ofString "<<" && tag == Tag.merge
  | _ => false

/-- Reads one entry of the top level; a null entry is left out. -/
def readTopEntry (r : Reader) (n : Node) : Except DecodeError Reader :=
  match n.resolved with
  | .scalar p tag style value =>
    if tag == Tag.null then do
      let _ ← readScalar tag value
      return r
    else
      match Entry.ofNode (.scalar p tag style value) with
      | .ok e => .ok { r with decls := r.decls ++ [e] }
      | .error e => .error (.entry e)
  | .sequence p tag items =>
    if tag == Tag.null then
      .ok (r.wrong (mismatchOf (.sequence p tag items) "loader.declYAML"))
    else .error (.entry (.notMapping p.line tag))
  | m =>
    match Entry.ofNode m with
    | .ok e => .ok { r with decls := r.decls ++ [e] }
    | .error e => .error (.entry e)

def readDecls (r : Reader) (n : Node) : Except DecodeError Reader :=
  let wanted : Text := "[]loader.declYAML"
  match n.resolved with
  | .sequence _ _ items => items.foldlM readTopEntry { r with decls := [] }
  | .scalar p tag style value => do
    match ← readScalar tag value with
    | .null => return { r with decls := [] }
    | _ => return r.wrong (mismatchOf (.scalar p tag style value) wanted)
  | .mapping p tag pairs =>
    let repeated := repeatedKeys (pairs.map (·.1))
    if repeated.isEmpty then .ok (r.wrong (mismatchOf (.mapping p tag pairs) wanted))
    else .ok { r with errors := r.errors ++ repeated }
  | m => .ok (r.wrong (mismatchOf m wanted))

/-- The keys of a mapping as texts, as far as they are texts. -/
def textKeys (keys : List Node) : Except DecodeError (List Text) :=
  keys.foldlM (fun acc k =>
    match k.resolved with
    | .scalar _ tag _ value => do
      match ← readScalar tag value with
      | .text t => return t :: acc
      | _ => return acc
    | _ => .ok acc) []

/-- Reads the pairs of a mapping. Keys in `merged` are left out, if it is given, and each key read
is added to it. Gives also the value of the last merge key. -/
def readPairs (r : Reader) (merged : Option (List Text)) (set : Bool) :
    List (Node × Node) → Option Node →
      Except DecodeError (Reader × Option (List Text) × Option Node)
  | [], m => .ok (r, merged, m)
  | (k, v) :: rest, m =>
    if isMergeKey k then readPairs r merged set rest (some v)
    else do
      let (r, key) ← keyText r k
      match key with
      | none => readPairs r merged set rest m
      | some key =>
        if (merged.getD []).contains key then readPairs r merged set rest m
        else
          let merged := merged.map (key :: ·)
          if key == Text.ofString "decls" then
            if set then readPairs (r.wrong (.keySetTwice k.place.line key)) merged set rest m
            else do
              let r ← readDecls r v
              readPairs r merged true rest m
          else readPairs (r.wrong (.unknownKey k.place.line key)) merged set rest m

def mergeMappings (v : Node) : Except DecodeError (List Node) :=
  match v with
  | .mapping .. => .ok [v]
  | .reference _ _ target =>
    match target with
    | .mapping .. => .ok [target]
    | _ => .error .mergeValue
  | .sequence _ _ items => .ok items
  | .scalar .. => .error .mergeValue

/-- Reads a mapping with the merges in it, nested at most `fuel` deep. -/
def readMapping : Nat → Reader → Option (List Text) → Node →
    Except DecodeError (Reader × Option (List Text))
  | 0, r, merged, _ => .ok (r, merged)
  | fuel + 1, r, merged, n =>
    match n with
    | .mapping _ _ pairs =>
      let repeated := repeatedKeys (pairs.map (·.1))
      if !repeated.isEmpty then .ok ({ r with errors := r.errors ++ repeated }, merged)
      else do
        let (r, seen, merge) ← readPairs r merged false pairs none
        match merge with
        | none => return (r, seen)
        | some v =>
          let inner ← match seen with
            | some s => pure s
            | none => textKeys (pairs.map (·.1))
          let items ← mergeMappings v
          let (r, inner) ← items.foldlM (fun (r, inner) item => do
            match item.resolved with
            | .mapping .. =>
              let (r, after) ← readMapping fuel r (some inner) item.resolved
              return (r, after.getD inner)
            | _ => throw .mergeValue) (r, inner)
          return (r, seen.map fun _ => inner)
    | _ => .ok (r, merged)

def depth : Node → Nat
  | .scalar .. => 1
  | .reference _ _ target => depth target + 1
  | .sequence _ _ items => depthItems items + 1
  | .mapping _ _ pairs => depthPairs pairs + 1
where
  depthItems : List Node → Nat
    | [] => 0
    | n :: rest => max (depth n) (depthItems rest)
  depthPairs : List (Node × Node) → Nat
    | [] => 0
    | (_, v) :: rest => max (depth v) (depthPairs rest)

/-- Reads the root of a manifest. A null root is an empty manifest. -/
def readRoot (n : Node) : Except DecodeError (List Entry) := do
  let wanted : Text := "loader.manifestYAML"
  let r ← match n with
    | .mapping .. => do
      let (r, _) ← readMapping (depth n) {} none n
      pure r
    | .scalar _ tag _ value => do
      match ← readScalar tag value with
      | .null => pure {}
      | _ => pure (({} : Reader).wrong (mismatchOf n wanted))
    | _ => pure (({} : Reader).wrong (mismatchOf n wanted))
  if r.errors.isEmpty then return r.decls else throw (.shape r.errors)

/-- Reads the entries of a manifest. A text without a document has none. -/
def decode (t : Text) : Except DecodeError (List Entry) :=
  match Node.ofBytes t with
  | .error f => .error (.document f)
  | .ok none => .ok []
  | .ok (some n) => readRoot n

end DeclCheck.Manifest
