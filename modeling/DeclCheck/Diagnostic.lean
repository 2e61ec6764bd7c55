import DeclCheck.Diagnostic.Code
import DeclCheck.Source.Span

/-!
# Diagnostics

A diagnostic is one problem at one place, with notes that point at other places.
-/
namespace DeclCheck

structure Note where
  span : Span := {}
  message : Text := []
  deriving DecidableEq, Repr, Inhabited

structure Diagnostic where
  severity : Severity := .info
  code : Code := .unknown
  message : Text := []
  primary : Span := {}
  notes : List Note := []
  deriving DecidableEq, Repr, Inhabited

namespace Diagnostic

def error (code : Code) (primary : Span) (message : Text) : Diagnostic :=
  { severity := .error, code, primary, message }

def warning (code : Code) (primary : Span) (message : Text) : Diagnostic :=
  { severity := .warning, code, primary, message }

def withNote (d : Diagnostic) (span : Span) (message : Text) : Diagnostic :=
  { d with notes := d.notes ++ [{ span, message }] }

def isError (d : Diagnostic) : Bool := d.severity.isError

end Diagnostic

/-- A diagnostic on its way to a sink. It gets there once, however often it is sent. -/
structure Report where
  diagnostic : Diagnostic
  sent : Bool := false

namespace Report

def withNote (r : Report) (span : Span) (message : Text) : Report :=
  { r with diagnostic := r.diagnostic.withNote span message }

def send {σ : Type} (r : Report) (sink : σ → Diagnostic → σ) (s : σ) : Report × σ :=
  if r.sent then (r, s) else ({ r with sent := true }, sink s r.diagnostic)

def sendTimes {σ : Type} (sink : σ → Diagnostic → σ) : Nat → Report → σ → Report × σ
  | 0, r, s => (r, s)
  | n + 1, r, s =>
    let (r, s) := r.send sink s
    sendTimes sink n r s

end Report

end DeclCheck
