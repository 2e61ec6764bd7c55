import DeclCheck.Text.Quoted

/-!
# What can be wrong with a TOML document

A document fails in its characters, in how they go together, in a value, in keys that collide, or
in a value of another type than is expected. A failure names its line and the last key that was
read.
-/
namespace DeclCheck.Toml

abbrev Key := List Text

def isBare (c : Char) : Bool := c.isAlphanum || c = '_' || c = '-'

def escapeKeyChar (c : Char) : Text :=
  if c = '"' then "\\\""
  else if c = '\\' then "\\\\"
  else if c = '\n' then "\\n"
  else if c = '\r' then "\\r"
  else if c = '\t' then "\\t"
  else if c.toNat = 8 then "\\b"
  else if c.toNat = 12 then "\\f"
  else if c.toNat < 0x20 || c.toNat = 0x7F then "\\u" ++ Text.hexNat 4 c.toNat
  else Text.ofChars [c]

/-- A part of a key, in quotes unless it is bare. -/
def partText (part : Text) : Text :=
  if part.isEmpty then "\"\""
  else if part.chars.all isBare then part
  else "\"" ++ part.chars.flatMap escapeKeyChar ++ "\""

def keyText (key : Key) : Text := Text.join "." (key.map partText)

/-- What is wrong. Where a character is expected, none stands for the end of the document. -/
inductive Fault where
  | zeroByte
  | stray (byte : UInt8)
  | control (c : Char)
  | afterItem (c : Char)
  | arrayNameEnd (found : Option Char)
  | emptyTableName
  | emptyTablePart
  | tableNameEnd (found : Option Char)
  | blankKey
  | keyStartsWithPoint
  | blankPart
  | doublePoint
  | endBeforeSeparator
  | keyEnd (c : Char)
  | endBeforeValue
  | notValue (c : Char)
  | notValueWord (word : Text)
  | leadingPoint
  | unexpectedComma
  | listEnd (found : Option Char)
  | inlineEnd (found : Option Char)
  | trailingComma
  | newlineInTable
  | newlineInText
  | unclosedText (quote : Text)
  | sixQuotes (quotes : Text)
  | badEscape (c : Option Char)
  | blankEscape (c : Char)
  | shortCode (read : Text)
  | longCode (read : Text)
  | badCode (digits : Text)
  | notDigit (found : Option Char)
  | badFloatWord (word : Text)
  | signedBase (read : Text) (base : Char)
  | notBinary (read : Text) (found : Option Char)
  | notOctal (read : Text) (found : Option Char)
  | notHexadecimal (read : Text) (found : Option Char)
  | integerUnderscores (read : Text)
  | integerZeros (read : Text)
  | floatUnderscores (read : Text)
  | floatZeros (read : Text)
  | floatPoint (read : Text)
  | badFloat (read : Text)
  | integerRange (read : Text)
  | floatRange (read : Text)
  | badTime (read : Text)
  | alreadyDefined (key : Key)
  | notTable (key : Key)
  | notList (key : Key)
  | wrongType (found expected : Text)
  | wrongTable (expected found : Text)
  deriving DecidableEq, Repr

/-- A character that was found, in quotes; the end is shown as a zero. -/
def quoteFound (c : Option Char) : Text := Text.quoteSingle (c.getD (Char.ofNat 0))

/-- A character that was found as it is, or the end in words. -/
def plainFound : Option Char → Text
  | some c => "'" ++ Text.ofChars [c] ++ "'"
  | none => "end of file"

/-- A character that was found as it is; the end is a zero. -/
def rawFound (c : Option Char) : Text := Text.ofChars [c.getD (Char.ofNat 0)]

def Fault.message : Fault → Text
  | zeroByte =>
    "files cannot contain NULL bytes; probably using UTF-16; TOML files must be UTF-8"
  | stray b => "invalid UTF-8 byte: 0x" ++ Text.hexNat 2 b.toNat
  | control c =>
    "TOML files cannot contain control characters: '0x" ++ Text.hexNat 2 c.toNat ++ "'"
  | afterItem c =>
    "expected a top-level item to end with a newline, comment, or EOF, but got " ++
      Text.quoteSingle c ++ " instead"
  | arrayNameEnd c =>
    "expected end of table array name delimiter ']', but got " ++ quoteFound c ++ " instead"
  | emptyTableName => "unexpected end of table name (table names cannot be empty)"
  | emptyTablePart => "unexpected table separator (table names cannot be empty)"
  | tableNameEnd c =>
    "expected '.' or ']' to end table name, but got " ++ quoteFound c ++ " instead"
  | blankKey => "unexpected '=': key name appears blank"
  | keyStartsWithPoint => "unexpected '.': keys cannot start with a '.'"
  | blankPart => "unexpected '='"
  | doublePoint => "unexpected '.'"
  | endBeforeSeparator => "unexpected EOF; expected key separator '='"
  | keyEnd c => "expected '.' or '=', but got " ++ Text.quoteSingle c ++ " instead"
  | endBeforeValue => "unexpected EOF; expected value"
  | notValue c => "expected value but found " ++ Text.quoteSingle c ++ " instead"
  | notValueWord w => "expected value but found " ++ w.quote ++ " instead"
  | leadingPoint => "floats must start with a digit, not '.'"
  | unexpectedComma => "unexpected comma"
  | listEnd c =>
    "expected a comma (',') or array terminator (']'), but got " ++ plainFound c
  | inlineEnd c =>
    "expected a comma or an inline table terminator '\x7d', but got " ++ plainFound c ++ " instead"
  | trailingComma => "trailing comma not allowed in inline tables"
  | newlineInTable => "newlines not allowed within inline tables"
  | newlineInText => "strings cannot contain newlines"
  | unclosedText quote => "unexpected EOF; expected " ++ quote
  | sixQuotes quotes => "unexpected " ++ quotes
  | badEscape c => "invalid escape in string '\\" ++ rawFound c ++ "'"
  | blankEscape c => "invalid escape: '\\" ++ Text.ofChars [c] ++ "'"
  | shortCode read =>
    "expected four hexadecimal digits after '\\u', but got " ++ read.quote ++ " instead"
  | longCode read =>
    "expected eight hexadecimal digits after '\\U', but got " ++ read.quote ++ " instead"
  | badCode digits => "Escaped character '\\u" ++ digits ++ "' is not valid UTF-8."
  | notDigit c => "expected a digit but got " ++ quoteFound c
  | badFloatWord w => "invalid float: '" ++ w ++ "'"
  | signedBase read c =>
    "cannot use sign with non-decimal numbers: '" ++ read ++ Text.ofChars [c] ++ "'"
  | notBinary read c => "not a binary number: '" ++ read ++ rawFound c ++ "'"
  | notOctal read c => "not an octal number: '" ++ read ++ rawFound c ++ "'"
  | notHexadecimal read c => "not a hexidecimal number: '" ++ read ++ rawFound c ++ "'"
  | integerUnderscores t =>
    "Invalid integer " ++ t.quote ++ ": underscores must be surrounded by digits"
  | integerZeros t => "Invalid integer " ++ t.quote ++ ": cannot have leading zeroes"
  | floatUnderscores t =>
    "Invalid float " ++ t.quote ++ ": underscores must be surrounded by digits"
  | floatZeros t => "Invalid float " ++ t.quote ++ ": cannot have leading zeroes"
  | floatPoint t =>
    "Invalid float " ++ t.quote ++ ": '.' must be followed by one or more digits"
  | badFloat t => "Invalid float value: " ++ t.quote
  | integerRange t => t ++ " is out of range for int64"
  | floatRange t => t ++ " is out of range for float64"
  | badTime t => "Invalid TOML Datetime: " ++ t.quote ++ "."
  | alreadyDefined key => "Key '" ++ keyText key ++ "' has already been defined."
  | notTable key => "Key '" ++ keyText key ++ "' was already created as a hash."
  | notList key =>
    "Key '" ++ keyText key ++ "' was already created and cannot be used as an array."
  | wrongType found expected =>
    "incompatible types: TOML value has type " ++ found ++ "; destination has type " ++ expected
  | wrongTable expected found =>
    "type mismatch for " ++ expected ++ ": expected table but found " ++ found

/-- A fault with its line, if that is known, and the last key. -/
structure Failure where
  line : Option Int
  lastKey : Text
  fault : Fault
  deriving DecidableEq, Repr

def Failure.message (f : Failure) : Text :=
  let line : Text := match f.line with
    | some n => " line " ++ Text.ofInt n
    | none => []
  let key : Text := if f.lastKey.isEmpty then [] else " (last key " ++ f.lastKey.quote ++ ")"
  let place := line ++ key
  "toml:" ++ place ++ (if place.isEmpty then Text.ofString " " else ": ") ++ f.fault.message

end DeclCheck.Toml
