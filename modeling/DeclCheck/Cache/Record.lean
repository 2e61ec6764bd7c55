import DeclCheck.Cache.Pack
import DeclCheck.Diagnostic

/-!
# Cache entries

An entry holds what was reported about a file, in the order of the reports, before any limit. It
tells the version of its own form, so that entries of another version are passed over.
-/
namespace DeclCheck

structure CacheRecord where
  version : UInt16 := 0
  path : Text := []
  /-- The digest of the content. -/
  digest : Text := List.replicate Pack.digestLength 0
  /-- The number of declarations on the top level. -/
  decls : Int := 0
  diagnostics : List Diagnostic := []
  deriving DecidableEq, Repr, Inhabited

namespace CacheRecord

def currentVersion : UInt16 := 2

/-! ## Writing -/

def packSpan (s : Span) : Text :=
  Pack.map [("File", Pack.word32 s.file.toUInt32), ("Start", Pack.word32 s.start),
    ("End", Pack.word32 s.stop)]

def packNote (n : Note) : Text :=
  Pack.map [("span", packSpan n.span), ("msg", Pack.text n.message)]

/-- A diagnostic; a list of notes that is empty is left out. -/
def packDiagnostic (d : Diagnostic) : Text :=
  Pack.map
    ([(Text.ofString "sev", Pack.byte d.severity.rank), ("code", Pack.word16 d.code.number),
      ("msg", Pack.text d.message), ("primary", packSpan d.primary)] ++
      if d.notes.isEmpty then [] else [(Text.ofString "notes", Pack.list (d.notes.map packNote))])

def encode (r : CacheRecord) : Text :=
  Pack.map
    [("Schema", Pack.word16 r.version), ("Path", Pack.text r.path),
     ("ContentHash", Pack.bytes r.digest), ("Decls", Pack.natural r.decls.toNat),
     ("Diagnostics",
      if r.diagnostics.isEmpty then Pack.nil else Pack.list (r.diagnostics.map packDiagnostic))]

/-! ## Reading -/

open Pack (Reader Field)

/-- The low bits of a number. -/
def readUnsigned (bits : Nat) : Reader Nat := do
  return (← Pack.integer .notUnsigned) % Nat.pow 2 bits |>.toNat

def readSpan : Reader Span :=
  Pack.readRecord
    [⟨"File", fun s => do return { s with file := ← readUnsigned 32 }⟩,
     ⟨"Start", fun s => do return { s with start := (← readUnsigned 32).toUInt32 }⟩,
     ⟨"End", fun s => do return { s with stop := (← readUnsigned 32).toUInt32 }⟩] {}

def readNote : Reader Note :=
  Pack.readRecord
    [⟨"span", fun n => do return { n with span := ← readSpan }⟩,
     ⟨"msg", fun n => do return { n with message := ← Pack.readText }⟩] {}

def readDiagnostic : Reader Diagnostic :=
  Pack.readRecord
    [⟨"sev", fun d => do return { d with severity := ⟨(← readUnsigned 8).toUInt8⟩ }⟩,
     ⟨"code", fun d => do return { d with code := ⟨(← readUnsigned 16).toUInt16⟩ }⟩,
     ⟨"msg", fun d => do return { d with message := ← Pack.readText }⟩,
     ⟨"primary", fun d => do return { d with primary := ← readSpan }⟩,
     ⟨"notes", fun d => do return { d with notes := ← Pack.readList readNote }⟩] {}

def read : Reader CacheRecord :=
  Pack.readRecord
    [⟨"Schema", fun r => do return { r with version := (← readUnsigned 16).toUInt16 }⟩,
     ⟨"Path", fun r => do return { r with path := ← Pack.readText }⟩,
     ⟨"ContentHash", fun r => do return { r with digest := ← Pack.readDigest }⟩,
     ⟨"Decls", fun r => do return { r with decls := ← Pack.integer .notSigned }⟩,
     ⟨"Diagnostics", fun r => do
        return { r with diagnostics := ← Pack.readList readDiagnostic }⟩] {}

def decode (t : Text) : Except Pack.Fault CacheRecord := (read.run t).map (·.1)

def diagnosticsFor (r : CacheRecord) (file : FileId) : List Diagnostic :=
  r.diagnostics.map fun d =>
    { d with
      primary := { d.primary with file }
      notes := d.notes.map fun n => { n with span := { n.span with file } } }

end CacheRecord

end DeclCheck
