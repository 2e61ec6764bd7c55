import DeclCheck.Text

/-!
# MessagePack

The part of the MessagePack format that cache entries need. A value starts with a code that tells
its kind and its size. Writing picks the fixed or the shortest form of a number as asked; reading
takes every form of it.
-/
namespace DeclCheck.Pack

/-! ## Writing -/

/-- The low `width` bytes of a number, the high byte first. -/
def bigEndian (width value : Nat) : Text :=
  (List.range width).reverse.map fun i => (value / Nat.pow 256 i % 256).toUInt8

def nil : Text := [0xC0]

def byte (n : UInt8) : Text := 0xCC :: bigEndian 1 n.toNat

def word16 (n : UInt16) : Text := 0xCD :: bigEndian 2 n.toNat

def word32 (n : UInt32) : Text := 0xCE :: bigEndian 4 n.toNat

def natural (n : Nat) : Text :=
  if n < 0x80 then [n.toUInt8]
  else if n < 0x100 then 0xCC :: bigEndian 1 n
  else if n < 0x10000 then 0xCD :: bigEndian 2 n
  else if n < 0x100000000 then 0xCE :: bigEndian 4 n
  else 0xCF :: bigEndian 8 n

def text (t : Text) : Text :=
  let n := t.length
  (if n < 32 then [0xA0 + n.toUInt8]
    else if n < 0x100 then 0xD9 :: bigEndian 1 n
    else if n < 0x10000 then 0xDA :: bigEndian 2 n
    else 0xDB :: bigEndian 4 n) ++ t

def bytes (t : Text) : Text :=
  let n := t.length
  (if n < 0x100 then 0xC4 :: bigEndian 1 n
    else if n < 0x10000 then 0xC5 :: bigEndian 2 n
    else 0xC6 :: bigEndian 4 n) ++ t

def list (items : List Text) : Text :=
  let n := items.length
  (if n < 16 then [0x90 + n.toUInt8]
    else if n < 0x10000 then 0xDC :: bigEndian 2 n
    else 0xDD :: bigEndian 4 n) ++ items.flatten

def map (fields : List (Text × Text)) : Text :=
  let n := fields.length
  (if n < 16 then [0x80 + n.toUInt8]
    else if n < 0x10000 then 0xDE :: bigEndian 2 n
    else 0xDF :: bigEndian 4 n) ++ fields.flatMap fun (k, v) => text k ++ v

/-! ## Reading -/

inductive Fault where
  /-- There is nothing left. -/
  | endOfData
  /-- There is less left than was announced. -/
  | cutShort
  | notMap (code : UInt8)
  | notList (code : UInt8)
  | notText (code : UInt8)
  | notUnsigned (code : UInt8)
  | notSigned (code : UInt8)
  | unknownCode (code : UInt8)
  /-- A list of fields has another length than the fields. -/
  | fieldCount
  /-- There are more bytes than a digest has. -/
  | digestSize (size : Nat)
  deriving DecidableEq, Repr

def codeText (c : UInt8) : Text :=
  if c < 16 then [Text.hexDigit c.toNat] else Text.hexNat 2 c.toNat

def digestLength : Nat := 32

def Fault.message : Fault → Text
  | endOfData => "EOF"
  | cutShort => "unexpected EOF"
  | notMap c => "msgpack: unexpected code=" ++ codeText c ++ " decoding map length"
  | notList c => "msgpack: invalid code=" ++ codeText c ++ " decoding array length"
  | notText c => "msgpack: invalid code=" ++ codeText c ++ " decoding string/bytes length"
  | notUnsigned c => "msgpack: invalid code=" ++ codeText c ++ " decoding uint64"
  | notSigned c => "msgpack: invalid code=" ++ codeText c ++ " decoding int64"
  | unknownCode c => "msgpack: unknown code " ++ codeText c
  | fieldCount => "msgpack: number of fields in array-encoded struct has changed"
  | digestSize n =>
    "driver.Digest len is " ++ Text.ofNat digestLength ++ ", but msgpack has " ++ Text.ofNat n ++
      " elements"

/-- Reads from the front of a text and leaves the rest. -/
abbrev Reader := StateT Text (Except Fault)

def take (n : Nat) : Reader Text := fun t =>
  if n ≤ t.length then .ok (t.take n, t.drop n)
  else .error (if t.isEmpty then .endOfData else .cutShort)

def code : Reader UInt8
  | [] => .error .endOfData
  | c :: t => .ok (c, t)

def number (width : Nat) : Reader Nat := do
  return (← take width).foldl (fun n b => n * 256 + b.toNat) 0

/-- The number in the next `width` bytes, of which the first bit is a sign. -/
def signed (width : Nat) : Reader Int := do
  let n ← number width
  return if 2 * n < Nat.pow 256 width then n else (n : Int) - Nat.pow 256 width

/-- A number in any form; nothing is zero. -/
def integer (fault : UInt8 → Fault) : Reader Int := do
  let c ← code
  if c < 0x80 then return c.toNat
  if 0xE0 ≤ c then return (c.toNat : Int) - 256
  match c with
  | 0xC0 => return 0
  | 0xCC => return (← number 1)
  | 0xCD => return (← number 2)
  | 0xCE => return (← number 4)
  | 0xCF => return (← number 8)
  | 0xD0 => signed 1
  | 0xD1 => signed 2
  | 0xD2 => signed 4
  | 0xD3 => signed 8
  | _ => throw (fault c)

/-- The size of a text or of bytes, if they are there. -/
def textLength? (c : UInt8) : Reader (Option Nat) := do
  if 0xA0 ≤ c && c < 0xC0 then return some (c.toNat - 0xA0)
  match c with
  | 0xC0 => return none
  | 0xC4 | 0xD9 => return some (← number 1)
  | 0xC5 | 0xDA => return some (← number 2)
  | 0xC6 | 0xDB => return some (← number 4)
  | _ => throw (.notText c)

/-- A text; nothing is the empty text. -/
def readText : Reader Text := do
  match ← textLength? (← code) with
  | none => return []
  | some n => take n

/-- A digest, filled up with zeros; nothing is all zeros. -/
def readDigest : Reader Text := do
  let n := (← textLength? (← code)).getD 0
  if digestLength < n then throw (.digestSize n)
  let t ← take n
  return t ++ List.replicate (digestLength - n) 0

/-- The number of items of a list; nothing has none. -/
def listLength (c : UInt8) : Reader Nat := do
  if 0x90 ≤ c && c < 0xA0 then return c.toNat - 0x90
  match c with
  | 0xC0 => return 0
  | 0xDC => number 2
  | 0xDD => number 4
  | _ => throw (.notList c)

def times {α : Type} (item : Reader α) : Nat → Reader (List α)
  | 0 => return []
  | n + 1 => do
    let a ← item
    return a :: (← times item n)

def readList {α : Type} (item : Reader α) : Reader (List α) := do
  times item (← listLength (← code))

/-- How many values come behind a code before its own value is complete, after the bytes that
belong to the code itself. -/
def skipHead : Reader Nat := do
  let c ← code
  let skipBytes (n : Nat) : Reader Nat := do
    let _ ← take n
    return 0
  if c < 0x80 || 0xE0 ≤ c then return 0
  if c < 0x90 then return 2 * (c.toNat - 0x80)
  if c < 0xA0 then return c.toNat - 0x90
  if c < 0xC0 then return ← skipBytes (c.toNat - 0xA0)
  match c with
  | 0xC0 | 0xC2 | 0xC3 => return 0
  | 0xCC | 0xD0 => skipBytes 1
  | 0xCD | 0xD1 => skipBytes 2
  | 0xCE | 0xD2 | 0xCA => skipBytes 4
  | 0xCF | 0xD3 | 0xCB => skipBytes 8
  | 0xC4 | 0xD9 => skipBytes (← number 1)
  | 0xC5 | 0xDA => skipBytes (← number 2)
  | 0xC6 | 0xDB => skipBytes (← number 4)
  | 0xDC => number 2
  | 0xDD => number 4
  | 0xDE => return 2 * (← number 2)
  | 0xDF => return 2 * (← number 4)
  | 0xD4 => skipBytes 2
  | 0xD5 => skipBytes 3
  | 0xD6 => skipBytes 5
  | 0xD7 => skipBytes 9
  | 0xD8 => skipBytes 17
  | 0xC7 => skipBytes ((← number 1) + 1)
  | 0xC8 => skipBytes ((← number 2) + 1)
  | 0xC9 => skipBytes ((← number 4) + 1)
  | _ => throw (.unknownCode c)

/-- Skips a number of values. Each code takes a byte, so `fuel` bounds the codes. -/
def skipMany : Nat → Nat → Reader Unit
  | _, 0 => return ()
  | 0, _ + 1 => throw .endOfData
  | fuel + 1, n + 1 => do
    let inner ← skipHead
    skipMany fuel (inner + n)

def skip : Reader Unit := do
  skipMany ((← get).length + 1) 1

/-- A field of a record: its name, and how its value changes the record. -/
structure Field (α : Type) where
  name : Text
  read : α → Reader α

/-- A number of fields by name. Unknown ones are skipped. -/
def readNamed {α : Type} (fields : List (Field α)) : Nat → α → Reader α
  | 0, a => return a
  | n + 1, a => do
    let name ← readText
    match fields.find? (·.name == name) with
    | some f => readNamed fields n (← f.read a)
    | none =>
      skip
      readNamed fields n a

def readInOrder {α : Type} : List (Field α) → α → Reader α
  | [], a => return a
  | f :: fs, a => do readInOrder fs (← f.read a)

/-- A record: a map by names, a list of all fields, or nothing. Fields that are not there are those
of `start`. -/
def readRecord {α : Type} (fields : List (Field α)) (start : α) : Reader α := do
  let c ← code
  let listed (n : Nat) : Reader α :=
    if n = 0 then return start
    else if n ≠ fields.length then throw .fieldCount
    else readInOrder fields start
  if 0x80 ≤ c && c < 0x90 then return ← readNamed fields (c.toNat - 0x80) start
  if 0x90 ≤ c && c < 0xA0 then return ← listed (c.toNat - 0x90)
  match c with
  | 0xC0 => return start
  | 0xDE => readNamed fields (← number 2) start
  | 0xDF => readNamed fields (← number 4) start
  | 0xDC | 0xDD =>
    let n ← tryCatch (number (if c = 0xDC then 2 else 4)) fun _ => throw (.notMap c)
    listed n
  | _ => throw (.notMap c)

end DeclCheck.Pack
