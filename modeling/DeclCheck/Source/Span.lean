import DeclCheck.Text

/-!
# Spans

A span is a half-open range of byte offsets in one file. Offsets are 32-bit words. A span may
have its end before its start; it then has no bytes.
-/
namespace DeclCheck

abbrev FileId := Nat

/-- A range of bytes of one file: `start` is inside it and `stop` is not. -/
structure Span where
  file : FileId := 0
  start : UInt32 := 0
  stop : UInt32 := 0
  deriving DecidableEq, Repr, Inhabited

namespace Span

def isEmpty (s : Span) : Bool := s.start == s.stop

def length (s : Span) : UInt32 := if s.stop < s.start then 0 else s.stop - s.start

def render (s : Span) : Text :=
  Text.ofNat s.file ++ ":" ++ Text.ofNat s.start.toNat ++ "-" ++ Text.ofNat s.stop.toNat

/-- The least span over both. A span of another file changes nothing. -/
def cover (s t : Span) : Span :=
  if s.file ≠ t.file then s
  else { s with
    start := if t.start < s.start then t.start else s.start
    stop := if s.stop < t.stop then t.stop else s.stop }

def contains (s t : Span) : Bool :=
  s.file == t.file && decide (s.start ≤ t.start) && decide (t.stop ≤ s.stop)

end Span

end DeclCheck
