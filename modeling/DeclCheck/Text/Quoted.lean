import DeclCheck.Text.Printable
import DeclCheck.Text.Utf8

/-!
# Quoted texts

A text between double quotes on one line: a quote and a backslash stand after a backslash,
printable characters stand for themselves, and everything else is written as an escape: a letter
for the seven control characters that have one, two hexadecimal digits for the other control
characters and for stray bytes, four or eight for the rest.
-/
namespace DeclCheck.Text

/-- The letter that stands after the backslash for a control character that has one. -/
def controlLetter? (c : Char) : Option Char :=
  match c.toNat with
  | 7 => some 'a'
  | 8 => some 'b'
  | 12 => some 'f'
  | 10 => some 'n'
  | 13 => some 'r'
  | 9 => some 't'
  | 11 => some 'v'
  | _ => none

def quoteChar (c : Char) : Text :=
  if c = '"' || c = '\\' then ofChars ['\\', c]
  else if isPrintable c then ofChars [c]
  else
    match controlLetter? c with
    | some l => ofChars ['\\', l]
    | none =>
      let n := c.toNat
      if n < 0x20 || n = 0x7F then "\\x" ++ hexNat 2 n
      else if n < 0x10000 then "\\u" ++ hexNat 4 n
      else "\\U" ++ hexNat 8 n

def Piece.quoted : Piece → Text
  | .char c => quoteChar c
  | .stray b => "\\x" ++ hexNat 2 b.toNat

def quote (t : Text) : Text := "\"" ++ (pieces t).flatMap Piece.quoted ++ "\""

/-- A character in single quotes. There the single quote stands after a backslash, and the double
quote for itself. -/
def quoteSingle (c : Char) : Text :=
  let inner : Text :=
    if c = '\'' then "\\'" else if c = '"' then ofChars [c] else quoteChar c
  "'" ++ inner ++ "'"

end DeclCheck.Text
