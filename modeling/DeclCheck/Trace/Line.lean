import DeclCheck.Decimal
import DeclCheck.Render.Json
import DeclCheck.Trace

/-!
# Trace lines

An event is written on one line, for readers or as a JSON object.
-/
namespace DeclCheck.Trace

/-- How events are written. Numbers above two are as text. -/
structure LineFormat where
  number : UInt8
  deriving DecidableEq, Repr, Inhabited

namespace LineFormat

/-- The name of the output decides. -/
def auto : LineFormat := ⟨0⟩

def text : LineFormat := ⟨1⟩

def ndjson : LineFormat := ⟨2⟩

def parse? (t : Text) : Option LineFormat :=
  let name := t.lowerKeyword
  if name.isEmpty || name == Text.ofString "auto" then some auto
  else if name == Text.ofString "text" then some text
  else if name == Text.ofString "ndjson" || name == Text.ofString "json" then some ndjson
  else none

def invalidMessage (t : Text) : Text :=
  "invalid trace format: " ++ t.quote ++ " (expected: auto|text|ndjson)"

def resolve (f : LineFormat) (output : Text) : LineFormat :=
  if f = auto then
    if output.endsWith ".ndjson" || output.endsWith ".jsonl" then ndjson else text
  else f

end LineFormat

/-! ## Times -/

/-- A number in decimal with at least `width` digits. -/
def digits (width : Nat) (n : Nat) : Text :=
  let t := Text.ofNat n
  List.replicate (width - t.length) 48 ++ t

/-- The year, month and day of a number of days since 1970, by eras of 400 years that start in
March. -/
def civil (days : Int) : Int × Nat × Nat :=
  let z := days + 719468
  let era := z / 146097
  let doe := (z % 146097).toNat
  let yoe := (doe - doe / 1460 + doe / 36524 - doe / 146096) / 365
  let doy := doe - (365 * yoe + yoe / 4 - yoe / 100)
  let mp := (5 * doy + 2) / 153
  let day := doy - (153 * mp + 2) / 5 + 1
  let month := if mp < 10 then mp + 3 else mp - 9
  ((yoe : Int) + era * 400 + (if month ≤ 2 then 1 else 0), month, day)

/-- The offset of a zone in hours and minutes, or the letter Z for none. -/
def zoneText (zone : Int) : Text :=
  if zone = 0 then "Z"
  else
    let minutes := zone.tdiv 60
    (if minutes < 0 then Text.ofString "-" else "+") ++ digits 2 (minutes.natAbs / 60) ++ ":" ++
      digits 2 (minutes.natAbs % 60)

def timeText (micros zone : Int) : Text :=
  let localMicros := micros + zone * 1000000
  let seconds := localMicros / 1000000
  let (year, month, day) := civil (seconds / 86400)
  let inDay := (seconds % 86400).toNat
  (if year < 0 then Text.ofString "-" else []) ++ digits 4 year.natAbs ++ "-" ++ digits 2 month ++
    "-" ++ digits 2 day ++ "T" ++ digits 2 (inDay / 3600) ++ ":" ++ digits 2 (inDay / 60 % 60) ++
    ":" ++ digits 2 (inDay % 60) ++ "." ++ digits 6 (localMicros % 1000000).toNat ++ zoneText zone

namespace Event

def elapsedMicros (e : Event) : Int := e.elapsed.tdiv 1000

def sign (e : Event) : Text :=
  if e.kind = .begins then "→ "
  else if e.kind = .ends then "← "
  else if e.kind = .point then "• "
  else if e.kind = .heartbeat then "♡ "
  else []

def detailPart (e : Event) : Text := if e.detail.isEmpty then [] else " (" ++ e.detail ++ ")"

def factsPart (e : Event) : Text :=
  if e.extra.isEmpty then []
  else " \x7b" ++ Text.join ", " (e.extra.map fun (k, v) => k ++ "=" ++ v) ++ "\x7d"

def elapsedPart (e : Event) : Text :=
  if e.kind = .ends then " " ++ Decimal.quotient 3 1000 e.elapsedMicros ++ "ms" else []

def textLine (e : Event) : Text :=
  "#" ++ (Text.ofNat e.seq).padRight 6 ++ " " ++ e.scope.label.padRight 6 ++ " " ++ e.sign ++
    e.name ++ e.detailPart ++ e.factsPart ++ e.elapsedPart ++ [Text.newline]

def json (e : Event) : Json :=
  .object
    (Json.field "time" (.text (timeText e.micros e.zone)) ++
      Json.field "seq" (.number e.seq) ++
      Json.field "kind" (.text e.kind.label) ++
      Json.field "scope" (.text e.scope.label) ++
      Json.nonZero "span_id" e.span ++
      Json.nonZero "parent_id" e.parent ++
      Json.nonZero "gid" e.thread ++
      Json.field "name" (.text e.name) ++
      Json.nonEmpty "detail" e.detail ++
      (if e.elapsedMicros = 0 then [] else Json.field "elapsed_us" (.number e.elapsedMicros)) ++
      (if e.extra.isEmpty then []
        else Json.field "extra" (.object (e.extra.map fun (k, v) => (k, .text v)))))

def line (f : LineFormat) (e : Event) : Text :=
  if f = .ndjson then e.json.compact ++ [Text.newline] else e.textLine

end Event

end DeclCheck.Trace
