import DeclCheck.Decimal
import DeclCheck.Text.Utf8

/-!
# JSON

Values and how they are written: on one line, or indented by two spaces. Objects keep the order of
their fields. The characters `<`, `>` and `&` and the two line separators are written as
escapes, so that the output can stand in a page.
-/
namespace DeclCheck

/-- A JSON value; numbers are whole or counts of millionths. -/
inductive Json where
  | null
  | bool (b : Bool)
  | number (n : Int)
  | millionths (n : Nat)
  | text (t : Text)
  | list (items : List Json)
  | object (fields : List (Text × Json))
  deriving Repr, Inhabited

namespace Json

def unicodeEscape (n : Nat) : Text := "\\u" ++ Text.hexNat 4 n

def escapeChar (c : Char) : Text :=
  if c = '"' then "\\\""
  else if c = '\\' then "\\\\"
  else if c = '\n' then "\\n"
  else if c = '\r' then "\\r"
  else if c = '\t' then "\\t"
  else if c.toNat = 8 then "\\b"
  else if c.toNat = 12 then "\\f"
  else if c.toNat < 0x20 || c = '<' || c = '>' || c = '&' || c.toNat = 0x2028 ||
      c.toNat = 0x2029 then unicodeEscape c.toNat
  else Text.ofChars [c]

/-- A text as a JSON string. A byte of no character is written as the replacement character. -/
def quote (t : Text) : Text :=
  "\"" ++ ((Text.pieces t).flatMap fun
    | .char c => escapeChar c
    | .stray _ => "\\ufffd") ++ "\""

mutual

def compact : Json → Text
  | null => "null"
  | bool b => if b then "true" else "false"
  | number n => Text.ofInt n
  | millionths n => Decimal.millionths n
  | text t => quote t
  | list items => "[" ++ Text.join "," (compactItems items) ++ "]"
  | object fields => "\x7b" ++ Text.join "," (compactFields fields) ++ "\x7d"

def compactItems : List Json → List Text
  | [] => []
  | v :: rest => compact v :: compactItems rest

def compactFields : List (Text × Json) → List Text
  | [] => []
  | (k, v) :: rest => (quote k ++ ":" ++ compact v) :: compactFields rest

end

/-- Parts between brackets, one a line; brackets without parts stay together. -/
def block (opening closing : Text) (depth : Nat) (parts : List Text) : Text :=
  if parts.isEmpty then opening ++ closing
  else
    let inner := [Text.newline] ++ Text.spaces (2 * (depth + 1))
    opening ++ inner ++ Text.join (Text.ofString "," ++ inner) parts ++ [Text.newline] ++
      Text.spaces (2 * depth) ++ closing

mutual

/-- The value over several lines, where its first line is indented already. -/
def indented (depth : Nat) : Json → Text
  | null => "null"
  | bool b => if b then "true" else "false"
  | number n => Text.ofInt n
  | millionths n => Decimal.millionths n
  | text t => quote t
  | list items => block "[" "]" depth (indentedItems (depth + 1) items)
  | object fields => block "\x7b" "\x7d" depth (indentedFields (depth + 1) fields)

def indentedItems (depth : Nat) : List Json → List Text
  | [] => []
  | v :: rest => indented depth v :: indentedItems depth rest

def indentedFields (depth : Nat) : List (Text × Json) → List Text
  | [] => []
  | (k, v) :: rest => (quote k ++ ": " ++ indented depth v) :: indentedFields depth rest

end

def field (name : Text) (v : Json) : List (Text × Json) := [(name, v)]

/-- A field that is left out if it is zero. -/
def nonZero (name : Text) (n : Nat) : List (Text × Json) :=
  if n = 0 then [] else [(name, number n)]

/-- A field that is left out if it is empty. -/
def nonEmpty (name t : Text) : List (Text × Json) := if t.isEmpty then [] else [(name, text t)]

/-- Puts a field among fields in the order of their names, in place of one with the same name. -/
def insertField (name : Text) (v : Json) : List (Text × Json) → List (Text × Json)
  | [] => [(name, v)]
  | (n, w) :: rest =>
    match Text.compare name n with
    | .lt => (name, v) :: (n, w) :: rest
    | .eq => (name, v) :: rest
    | .gt => (n, w) :: insertField name v rest

end Json

end DeclCheck
