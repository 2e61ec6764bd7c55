import DeclCheck.Text

/-!
# Decimals with a fixed number of places

Times are counted in whole nanoseconds and shown in milliseconds, through binary floating point:
the count is rounded to 53 significant bits, so is its quotient, and that value is then written
with a fixed number of decimal places, a half going to the even neighbour. All of it is done in
exact arithmetic. The counts are of 64 bits, so no exponent comes near its bounds.
-/
namespace DeclCheck

/-- The number `mantissa · 2 ^ exponent`. -/
structure Binary where
  mantissa : Nat := 0
  exponent : Int := 0
  deriving DecidableEq, Repr, Inhabited

/-- The whole number nearest to `num / den`; of two it is the even one. -/
def roundDiv (num den : Nat) : Nat :=
  let q := num / den
  let twice := 2 * (num % den)
  if twice < den then q
  else if den < twice then q + 1
  else q + q % 2

namespace Binary

def scaled (num den : Nat) : Int → Nat × Nat
  | .ofNat e => (num, den * Nat.pow 2 e)
  | .negSucc e => (num * Nat.pow 2 (e + 1), den)

/-- The number of 53 significant bits that is nearest to `num / den`. -/
def nearest (num den : Nat) : Binary :=
  if num = 0 then {}
  else
    let low : Int := (num.log2 : Int) - den.log2 - 53
    let (n, d) := scaled num den low
    let exponent := if n / d < Nat.pow 2 53 then low else low + 1
    let (n, d) := scaled num den exponent
    { mantissa := roundDiv n d, exponent }

/-- The number of 53 significant bits that is nearest to the quotient of `b` by `d`. -/
def divNat (b : Binary) (d : Nat) : Binary :=
  match b.exponent with
  | .ofNat e => nearest (b.mantissa * Nat.pow 2 e) d
  | .negSucc e => nearest b.mantissa (d * Nat.pow 2 (e + 1))

/-- The number times ten to the `places`, rounded to a whole number. -/
def places (b : Binary) (places : Nat) : Nat :=
  match b.exponent with
  | .ofNat e => b.mantissa * Nat.pow 2 e * Nat.pow 10 places
  | .negSucc e => roundDiv (b.mantissa * Nat.pow 10 places) (Nat.pow 2 (e + 1))

end Binary

namespace Decimal

/-- A count of units of ten to the minus `places` with a point in it. -/
def pointed (places n : Nat) : Text :=
  let digits := Text.ofNat (n % Nat.pow 10 places)
  Text.ofNat (n / Nat.pow 10 places) ++
    if places = 0 then []
    else Text.ofString "." ++ List.replicate (places - digits.length) 48 ++ digits

/-- The quotient of a count by `unit` with a number of places. A negative count keeps its sign,
even where all digits are zeros. -/
def quotient (places unit : Nat) (n : Int) : Text :=
  (if n < 0 then Text.ofString "-" else []) ++
    pointed places (((Binary.nearest n.natAbs 1).divNat unit).places places)

/-- The least number of places that shows a count of millionths. -/
def millionths (n : Nat) : Text :=
  let digits := Text.ofNat (n % 1000000)
  let fraction := List.replicate (6 - digits.length) 48 ++ digits
  let shown := (fraction.reverse.dropWhile (· == 48)).reverse
  Text.ofNat (n / 1000000) ++ if shown.isEmpty then [] else Text.ofString "." ++ shown

end Decimal

end DeclCheck
