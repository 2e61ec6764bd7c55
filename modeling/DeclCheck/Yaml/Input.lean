import DeclCheck.Text.Utf8

/-!
# Characters of a document

A document is UTF-8, or UTF-16 after a byte order mark. It is read in blocks of at most 512
bytes. A block with a malformed or a forbidden character is refused as a whole, so what a reader
can see of a faulty document are the characters of the blocks before it; the fault comes up when
the reader wants more.
-/
namespace DeclCheck.Yaml

inductive Fault where
  | leadingOctet
  | incompleteSequence
  | trailingOctet
  | sequenceLength
  | surrogate
  | incompleteUnit
  | unexpectedLow
  | incompletePair
  | expectedLow
  | control
  deriving DecidableEq, Repr

def Fault.message : Fault → Text
  | .leadingOctet => "invalid leading UTF-8 octet"
  | .incompleteSequence => "incomplete UTF-8 octet sequence"
  | .trailingOctet => "invalid trailing UTF-8 octet"
  | .sequenceLength => "invalid length of a UTF-8 sequence"
  | .surrogate => "invalid Unicode character"
  | .incompleteUnit => "incomplete UTF-16 character"
  | .unexpectedLow => "unexpected low surrogate area"
  | .incompletePair => "incomplete UTF-16 surrogate pair"
  | .expectedLow => "expected low surrogate area"
  | .control => "control characters are not allowed"

inductive Encoding where
  | utf8
  | utf16le
  | utf16be
  deriving DecidableEq, Repr

/-- The encoding that the start of a document shows, with the number of bytes of its mark. -/
def Encoding.detect : Text → Encoding × Nat
  | 0xFF :: 0xFE :: _ => (.utf16le, 2)
  | 0xFE :: 0xFF :: _ => (.utf16be, 2)
  | 0xEF :: 0xBB :: 0xBF :: _ => (.utf8, 3)
  | _ => (.utf8, 0)

inductive Front where
  /-- A code point and the number of its bytes. -/
  | point (n size : Nat)
  /-- The start of a character whose end is not there, and the fault if nothing follows. -/
  | cut (fault : Fault)
  | bad (fault : Fault)

def isAllowed (n : Nat) : Bool :=
  n == 9 || n == 10 || n == 13 || (0x20 ≤ n && n ≤ 0x7E) || n == 0x85 ||
    (0xA0 ≤ n && n ≤ 0xD7FF) || (0xE000 ≤ n && n ≤ 0xFFFD && n != 0xFEFF) ||
    (0x10000 ≤ n && n ≤ 0x10FFFF)

/-- The number of bytes that a first byte of UTF-8 announces. -/
def octetCount (a : UInt8) : Nat :=
  if a < 0x80 then 1 else if a < 0xC0 then 0 else if a < 0xE0 then 2 else if a < 0xF0 then 3
  else if a < 0xF8 then 4 else 0

/-- The least code point that a sequence of `size` bytes may spell. -/
def leastPoint : Nat → Nat
  | 2 => 0x80
  | 3 => 0x800
  | 4 => 0x10000
  | _ => 0

def frontUtf8 (a : UInt8) (rest : Text) : Front :=
  let size := octetCount a
  if size = 0 then .bad .leadingOctet
  else if rest.length + 1 < size then .cut .incompleteSequence
  else
    let tail := rest.take (size - 1)
    if tail.any (fun b => b < 0x80 || 0xBF < b) then .bad .trailingOctet
    else
      let lead := if size = 1 then a.toNat else a.toNat % Nat.pow 2 (7 - size)
      let n := tail.foldl (fun v b => v * 64 + Text.tailBits b) lead
      if n < leastPoint size then .bad .sequenceLength
      else if (0xD800 ≤ n && n ≤ 0xDFFF) || 0x10FFFF < n then .bad .surrogate
      else .point n size

/-- The code point at the front of UTF-16 bytes, `unit` being the value of two of them. -/
def frontUtf16 (unit : UInt8 → UInt8 → Nat) : Text → Front
  | a :: b :: rest =>
    let n := unit a b
    if 0xDC00 ≤ n && n ≤ 0xDFFF then .bad .unexpectedLow
    else if 0xD800 ≤ n && n ≤ 0xDBFF then
      match rest with
      | c :: d :: _ =>
        let m := unit c d
        if 0xDC00 ≤ m && m ≤ 0xDFFF then .point (0x10000 + n % 0x400 * 0x400 + m % 0x400) 4
        else .bad .expectedLow
      | _ => .cut .incompletePair
    else .point n 2
  | _ => .cut .incompleteUnit

def front (enc : Encoding) (a : UInt8) (rest : Text) : Front :=
  match enc with
  | .utf8 => frontUtf8 a rest
  | .utf16le => frontUtf16 (fun lo hi => lo.toNat + hi.toNat * 256) (a :: rest)
  | .utf16be => frontUtf16 (fun hi lo => lo.toNat + hi.toNat * 256) (a :: rest)

/-- The characters of a block, the last one first, with the bytes of a character that is cut off
at its end and the fault of that character should nothing follow. The first `skip` bytes belong
to a character already read. -/
def readBlock (enc : Encoding) (done : List Char) :
    Nat → Text → Except Fault (List Char × Text × Fault)
  | _, [] => .ok (done, [], .incompleteSequence)
  | skip + 1, _ :: t => readBlock enc done skip t
  | 0, a :: t =>
    match front enc a t with
    | .bad f => .error f
    | .cut f => .ok (done, a :: t, f)
    | .point n size =>
      if isAllowed n then readBlock enc (Char.ofNat n :: done) (size - 1) t else .error .control

def blockSize : Nat := 512

/-- What can be seen of a document: its characters, and the fault behind them if there is one. -/
structure Input where
  chars : List Char
  fault : Option Fault
  deriving Repr

/-- Reads `fuel` blocks. `done` are the characters before, the last one first, and `cut` are the
bytes of a character that the block before did not end. -/
def readBlocks (enc : Encoding) : Nat → List Char → Text → Fault → Text → Input
  | 0, done, _, _, _ => ⟨done.reverse, none⟩
  | fuel + 1, done, cut, ifLast, bytes =>
    if bytes.isEmpty then ⟨done.reverse, if cut.isEmpty then none else some ifLast⟩
    else
      let size := blockSize - cut.length
      match readBlock enc done 0 (cut ++ bytes.take size) with
      | .error f => ⟨done.reverse, some f⟩
      | .ok (done, cut, ifLast) => readBlocks enc fuel done cut ifLast (bytes.drop size)

/-- The characters of a document. The mark at its start counts into the first block. -/
def Input.ofBytes (t : Text) : Input :=
  let (enc, mark) := Encoding.detect t
  let first := t.take blockSize
  match readBlock enc [] 0 (first.drop mark) with
  | .error f => ⟨[], some f⟩
  | .ok (done, cut, ifLast) => readBlocks enc (t.length + 1) done cut ifLast (t.drop blockSize)

end DeclCheck.Yaml
