/-!
# Doubles

Magnitudes of binary floating-point numbers of 64 bits: `Double.nearest` rounds a natural number to 53
binary digits, and `Double.isFinite` says whether a decimal number is in range.
-/

namespace Countersign.Double

/-- The least magnitude that is nearer to `2^1024` than to the largest double. -/
def limit : Nat := Nat.pow 2 1024 - Nat.pow 2 970

/-- A natural number rounded to 53 binary digits; of two that are as near, the even one. Nothing is too
large for it. -/
def nearest (n : Nat) : Nat :=
  let unit := Nat.pow 2 (n.log2 + 1 - 53)
  let q := n / unit
  let r := n % unit
  (if unit < 2 * r ∨ (unit = 2 * r ∧ q % 2 = 1) then q + 1 else q) * unit

/-- Whether `mantissa * 10 ^ exponent` rounds to a finite double. -/
def isFinite (mantissa : Nat) (exponent : Int) : Bool :=
  let order : Int := (Nat.toDigits 10 mantissa).length + exponent
  if mantissa = 0 then true
  else if order > 310 then false
  else if order < 300 then true
  else if 0 ≤ exponent then decide (mantissa * Nat.pow 10 exponent.toNat < limit)
  else decide (mantissa < limit * Nat.pow 10 (-exponent).toNat)

end Countersign.Double
