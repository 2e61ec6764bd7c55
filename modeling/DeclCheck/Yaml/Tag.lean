import DeclCheck.Yaml.Number

/-!
# Tags of scalars

The tag of a plain scalar follows from its text: a null, a truth value, a number, a date or else a
string. An explicit tag must agree with the text if it is one of those, and is taken as it is
if it is another.
-/
namespace DeclCheck.Yaml

namespace Tag

/-- What the common tags start with in full. -/
def longStart : Text := "tag:yaml.org,2002:"

/-- The tag with two exclamation marks for the common start. -/
def short (t : Text) : Text :=
  if t.startsWith longStart then "!!" ++ t.drop longStart.length else t

def null : Text := "!!null"
def bool : Text := "!!bool"
def str : Text := "!!str"
def int : Text := "!!int"
def float : Text := "!!float"
def timestamp : Text := "!!timestamp"
def seq : Text := "!!seq"
def map : Text := "!!map"
def binary : Text := "!!binary"
def merge : Text := "!!merge"

/-- Does the tag ask for a reading of the text? -/
def isReadable (t : Text) : Bool :=
  [[], str, bool, int, float, null, timestamp].contains t

end Tag

/-- What the text of a scalar reads as, as far as anyone asks. -/
inductive Reading where
  | null
  | bool (b : Bool)
  | text (t : Text)
  | whole (w : Whole)
  | fraction
  | timestamp
  deriving DecidableEq, Repr

def Reading.tag : Reading → Text
  | .null => Tag.null
  | .bool _ => Tag.bool
  | .text _ => Tag.str
  | .whole _ => Tag.int
  | .fraction => Tag.float
  | .timestamp => Tag.timestamp

/-- The spellings that stand for themselves. -/
def spelled? (t : Text) : Option Reading :=
  if [Text.ofString "", "~", "null", "Null", "NULL"].contains t then some .null
  else if [Text.ofString "true", "True", "TRUE"].contains t then some (.bool true)
  else if [Text.ofString "false", "False", "FALSE"].contains t then some (.bool false)
  else if [Text.ofString ".nan", ".NaN", ".NAN", ".inf", ".Inf", ".INF", "+.inf", "+.Inf",
      "+.INF", "-.inf", "-.Inf", "-.INF"].contains t then some .fraction
  else none

/-- The reading of a text that starts with a digit or a sign. Underscores do not count. -/
def numeric? (dated : Bool) (t : Text) : Option Reading :=
  if dated && isTimestamp t then some .timestamp
  else
    let plain := t.filter (· != 95)
    match whole? plain with
    | some w => some (.whole w)
    | none =>
      if isFraction plain then some .fraction
      else
        match wholeInBase? 2 "0b" plain with
        | some w => some (.whole w)
        | none => (wholeInBase? 8 "0o" plain).map .whole

/-- The reading of a text. Dates are looked for only if `dated` holds. -/
def Reading.of (dated : Bool) (t : Text) : Reading :=
  match t with
  | [] => .null
  | b :: _ =>
    if b = 46 then
      match spelled? t with
      | some r => r
      | none => if isPointFraction t then .fraction else .text t
    else if Text.isDigitByte b || b = 43 || b = 45 then
      match spelled? t with
      | some r => r
      | none => (numeric? dated t).getD (.text t)
    else (spelled? t).getD (.text t)

def Tag.implicit (t : Text) : Text := (Reading.of true t).tag

/-- A text does not agree with the tag in front of it. -/
structure TagMismatch where
  found : Text
  text : Text
  wanted : Text
  deriving DecidableEq, Repr

def TagMismatch.message (m : TagMismatch) : Text :=
  "yaml: cannot decode " ++ m.found ++ " `" ++ m.text ++ "` as a " ++ m.wanted

/-- The tag and the reading of a text under a tag. -/
def Reading.under (tag t : Text) : Except TagMismatch (Text × Reading) :=
  let tag := Tag.short tag
  if !Tag.isReadable tag then .ok (tag, .text t)
  else if tag == Tag.str then .ok (tag, .text t)
  else
    let r := Reading.of (tag.isEmpty || tag == Tag.timestamp) t
    if tag.isEmpty || tag == r.tag then .ok (r.tag, r)
    else if tag == Tag.float && r == .whole .signed then .ok (tag, .fraction)
    else .error ⟨r.tag, t, tag⟩

end DeclCheck.Yaml
