import DeclCheck.Text

/-!
# Base 64

Four characters stand for three bytes. The last group may stand for one or two bytes and is then
filled up with equals signs. Line ends between characters do not count.
-/
namespace DeclCheck.Text

def base64Value? (b : UInt8) : Option Nat :=
  if 65 ≤ b && b ≤ 90 then some (b.toNat - 65)
  else if 97 ≤ b && b ≤ 122 then some (b.toNat - 71)
  else if 48 ≤ b && b ≤ 57 then some (b.toNat + 4)
  else if b = 43 then some 62
  else if b = 47 then some 63
  else none

def base64Groups? : Text → Option Text
  | [] => some []
  | [a, b, 61, 61] => do
    let x ← base64Value? a
    let y ← base64Value? b
    return [(x * 4 + y / 16).toUInt8]
  | [a, b, c, 61] => do
    let x ← base64Value? a
    let y ← base64Value? b
    let z ← base64Value? c
    return [(x * 4 + y / 16).toUInt8, (y * 16 + z / 4).toUInt8]
  | a :: b :: c :: d :: rest => do
    let x ← base64Value? a
    let y ← base64Value? b
    let z ← base64Value? c
    let w ← base64Value? d
    let more ← base64Groups? rest
    return (x * 4 + y / 16).toUInt8 :: (y * 16 + z / 4).toUInt8 :: (z * 64 + w).toUInt8 :: more
  | _ => none

def ofBase64? (t : Text) : Option Text :=
  base64Groups? (t.filter fun b => b != newline && b != carriageReturn)

end DeclCheck.Text
