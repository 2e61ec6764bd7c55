import DeclCheck.Text.Quoted
import DeclCheck.Text.Utf8

/-!
# Severities and codes

A severity is a rank and a code is a number. Ranks and numbers that have no meaning of their own
are kept: they compare like the others and show as unknown.
-/
namespace DeclCheck

/-- How bad a diagnostic is; a higher rank is worse. -/
structure Severity where
  rank : UInt8
  deriving DecidableEq, Repr, Inhabited

namespace Severity

/-- An observation, such as how long a phase took. -/
def info : Severity := ⟨0⟩

def warning : Severity := ⟨1⟩

def error : Severity := ⟨2⟩

def isError (s : Severity) : Bool := error.rank ≤ s.rank

def isWarning (s : Severity) : Bool := warning.rank ≤ s.rank

def header (s : Severity) : Text :=
  if s = info then "INFO"
  else if s = warning then "WARNING"
  else if s = error then "ERROR"
  else "UNKNOWN"

def label (s : Severity) : Text :=
  if s = error then "error" else if s = warning then "warning" else "info"

/-- The severity that a word names, in any case and with blanks around it. -/
def parse? (t : Text) : Option Severity :=
  let word := (Text.trim t).lowerKeyword
  if word == Text.ofString "info" then some info
  else if word == Text.ofString "warning" || word == Text.ofString "warn" then some warning
  else if word == Text.ofString "error" then some error
  else none

def unknownMessage (t : Text) : Text := "unknown severity " ++ t.quote

end Severity

structure Code where
  number : UInt16
  deriving DecidableEq, Repr, Inhabited

namespace Code

def unknown : Code := ⟨0⟩
def manifestInfo : Code := ⟨2000⟩
def manifestDecode : Code := ⟨2001⟩
def unknownDeclKind : Code := ⟨2002⟩
def badType : Code := ⟨2003⟩
def missingName : Code := ⟨2004⟩
def memberNotAllowed : Code := ⟨2005⟩
def prototypeBody : Code := ⟨2006⟩
def checkInfo : Code := ⟨3000⟩
def checkError : Code := ⟨3001⟩
def declConflict : Code := ⟨3002⟩
def notDeclared : Code := ⟨3005⟩
def overrideMismatch : Code := ⟨3006⟩
def notImplemented : Code := ⟨3040⟩
def loadFileError : Code := ⟨4001⟩
def cacheError : Code := ⟨4002⟩
def observationInfo : Code := ⟨6000⟩
def timings : Code := ⟨6001⟩

/-- The letters that stand before the number, by the thousand it is in. -/
def family? (c : Code) : Option Text :=
  let n := c.number.toNat
  if 2000 ≤ n && n < 3000 then some "SYN"
  else if 3000 ≤ n && n < 4000 then some "SEM"
  else if 4000 ≤ n && n < 5000 then some "IO"
  else if 6000 ≤ n && n < 7000 then some "OBS"
  else none

/-- The code as users see it. Codes of no family look alike. -/
def id (c : Code) : Text :=
  match c.family? with
  | some family => family ++ Text.ofNat c.number.toNat
  | none => "E0000"

def titles : List (Code × Text) :=
  [(unknown, "Unknown error"),
   (manifestInfo, "Manifest information"),
   (manifestDecode, "Malformed declaration manifest"),
   (unknownDeclKind, "Unknown declaration kind"),
   (badType, "Malformed type"),
   (missingName, "Declaration without a name"),
   (memberNotAllowed, "Member not allowed here"),
   (prototypeBody, "Interface method with a body"),
   (checkInfo, "Semantic information"),
   (checkError, "Semantic error"),
   (declConflict, "Conflicting declaration"),
   (notDeclared, "Identifier not declared"),
   (overrideMismatch, "Override does not match inherited signature"),
   (notImplemented, "Interface not implemented"),
   (loadFileError, "I/O load file error"),
   (cacheError, "Diagnostic cache error"),
   (observationInfo, "Observability information"),
   (timings, "Pipeline timings")]

def title (c : Code) : Text :=
  match titles.find? (·.1 == c) with
  | some (_, t) => t
  | none => "Unknown error"

def describe (c : Code) : Text := "[" ++ c.id ++ "]: " ++ c.title

end Code

end DeclCheck
