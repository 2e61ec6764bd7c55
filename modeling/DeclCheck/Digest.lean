import DeclCheck.Text

/-!
# Digests

The SHA-256 digest of a text, thirty-two bytes. The text is padded to blocks of sixty-four bytes;
each block is spread over sixty-four words, which stir a state of eight words one after the
other.
-/
namespace DeclCheck.Digest

/-- The round constants: the first bits of the fractional parts of the cube roots of the first
sixty-four primes. -/
def roundConstants : List UInt32 := [
  0x428a2f98, 0x71374491, 0xb5c0fbcf, 0xe9b5dba5, 0x3956c25b, 0x59f111f1, 0x923f82a4, 0xab1c5ed5,
  0xd807aa98, 0x12835b01, 0x243185be, 0x550c7dc3, 0x72be5d74, 0x80deb1fe, 0x9bdc06a7, 0xc19bf174,
  0xe49b69c1, 0xefbe4786, 0x0fc19dc6, 0x240ca1cc, 0x2de92c6f, 0x4a7484aa, 0x5cb0a9dc, 0x76f988da,
  0x983e5152, 0xa831c66d, 0xb00327c8, 0xbf597fc7, 0xc6e00bf3, 0xd5a79147, 0x06ca6351, 0x14292967,
  0x27b70a85, 0x2e1b2138, 0x4d2c6dfc, 0x53380d13, 0x650a7354, 0x766a0abb, 0x81c2c92e, 0x92722c85,
  0xa2bfe8a1, 0xa81a664b, 0xc24b8b70, 0xc76c51a3, 0xd192e819, 0xd6990624, 0xf40e3585, 0x106aa070,
  0x19a4c116, 0x1e376c08, 0x2748774c, 0x34b0bcb5, 0x391c0cb3, 0x4ed8aa4a, 0x5b9cca4f, 0x682e6ff3,
  0x748f82ee, 0x78a5636f, 0x84c87814, 0x8cc70208, 0x90befffa, 0xa4506ceb, 0xbef9a3f7, 0xc67178f2]

structure State where
  a : UInt32
  b : UInt32
  c : UInt32
  d : UInt32
  e : UInt32
  f : UInt32
  g : UInt32
  h : UInt32

def State.initial : State :=
  ⟨0x6a09e667, 0xbb67ae85, 0x3c6ef372, 0xa54ff53a, 0x510e527f, 0x9b05688c, 0x1f83d9ab, 0x5be0cd19⟩

def rotate (x n : UInt32) : UInt32 := (x >>> n) ||| (x <<< (32 - n))

/-- One round, with the sum of its constant and its word. -/
def State.round (s : State) (kw : UInt32) : State :=
  let s1 := rotate s.e 6 ^^^ rotate s.e 11 ^^^ rotate s.e 25
  let ch := (s.e &&& s.f) ^^^ ((~~~ s.e) &&& s.g)
  let t1 := s.h + s1 + ch + kw
  let s0 := rotate s.a 2 ^^^ rotate s.a 13 ^^^ rotate s.a 22
  let maj := (s.a &&& s.b) ^^^ (s.a &&& s.c) ^^^ (s.b &&& s.c)
  ⟨t1 + (s0 + maj), s.a, s.b, s.c, s.d + t1, s.e, s.f, s.g⟩

def State.add (s t : State) : State :=
  ⟨s.a + t.a, s.b + t.b, s.c + t.c, s.d + t.d, s.e + t.e, s.f + t.f, s.g + t.g, s.h + t.h⟩

def words : Text → List UInt32
  | a :: b :: c :: d :: t =>
    ((a.toUInt32 <<< 24) ||| (b.toUInt32 <<< 16) ||| (c.toUInt32 <<< 8) ||| d.toUInt32) :: words t
  | _ => []

/-- `n` more words from the sixteen words before them. -/
def schedule : Nat → List UInt32 → List UInt32
  | 0, w => w
  | n + 1, w =>
    match w with
    | w0 :: rest =>
      let w1 := (rest[0]?).getD 0
      let w9 := (rest[8]?).getD 0
      let w14 := (rest[13]?).getD 0
      let s0 := rotate w1 7 ^^^ rotate w1 18 ^^^ (w1 >>> 3)
      let s1 := rotate w14 17 ^^^ rotate w14 19 ^^^ (w14 >>> 10)
      w0 :: schedule n (rest ++ [w0 + s0 + w9 + s1])
    | [] => []

def State.block (s : State) (w : List UInt32) : State :=
  s.add ((List.zipWith (· + ·) roundConstants (schedule 48 w)).foldl State.round s)

def State.blocks : Nat → State → List UInt32 → State
  | 0, s, _ => s
  | n + 1, s, w => State.blocks n (s.block (w.take 16)) (w.drop 16)

def wordBytes (w : UInt32) : Text :=
  [(w >>> 24).toUInt8, (w >>> 16).toUInt8, (w >>> 8).toUInt8, w.toUInt8]

/-- The text with its padding: one bit, zeros and the length in bits. -/
def padded (t : Text) : Text :=
  let zeros := (119 - t.length % 64) % 64
  let bits := t.length * 8
  t ++ 0x80 :: List.replicate zeros 0 ++
    (List.range 8).reverse.map fun i => (bits / Nat.pow 256 i % 256).toUInt8

def sha256 (t : Text) : Text :=
  let p := padded t
  let s := State.blocks (p.length / 64) State.initial (words p)
  [s.a, s.b, s.c, s.d, s.e, s.f, s.g, s.h].flatMap wordBytes

end DeclCheck.Digest
