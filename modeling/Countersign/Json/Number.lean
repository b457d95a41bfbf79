import Countersign.Data.Double

/-!
# JSON numbers

A number is `natural` if it is written by its digits alone; of any other only a `Magnitude` is kept,
which holds as many digits as fit into 64 bits. `JsonNumber.isFinite` says whether the number can be
turned into a double in two steps, the digits and the power of ten each rounded before they are
multiplied.
-/

namespace Countersign

/-- The number `significand * 10 ^ exponent`. -/
structure Magnitude where
  significand : UInt64
  exponent : Int
  deriving DecidableEq, Repr

namespace Magnitude

def append? (significand : UInt64) (digit : Char) : Option UInt64 :=
  let n := digit.toNat - '0'.toNat + 10 * significand.toNat
  if n < UInt64.size then some (UInt64.ofNat n) else none

/-- Takes in the digits before the point. From the first one that does not fit, all count as
zeros. -/
def appendWhole (m : Magnitude) : List Char → Magnitude
  | [] => m
  | d :: ds =>
    match append? m.significand d with
    | some significand => appendWhole { m with significand } ds
    | none => { m with exponent := m.exponent + (d :: ds).length }

/-- Takes in the digits after the point, up to the first one that does not fit. -/
def appendFraction (m : Magnitude) : List Char → Magnitude
  | [] => m
  | d :: ds =>
    match append? m.significand d with
    | some significand => appendFraction ⟨significand, m.exponent - 1⟩ ds
    | none => m

def ofDigits (whole fraction : List Char) (exponent : Int) : Magnitude :=
  (appendWhole ⟨0, exponent⟩ whole).appendFraction fraction

/-- Whether the double of the significand times the double of the power of ten is in range. -/
def isFinite (m : Magnitude) : Bool :=
  if m.significand = 0 ∨ m.exponent < 0 then true
  else if 308 < m.exponent then false
  else
    decide (Double.nearest m.significand.toNat * Double.nearest (Nat.pow 10 m.exponent.toNat) <
      Double.limit)

end Magnitude

/-- A number: a natural one written by its digits alone, or any other as its sign and magnitude. -/
inductive JsonNumber where
  | natural (n : Nat)
  | real (negative : Bool) (magnitude : Magnitude)
  deriving DecidableEq, Repr

namespace JsonNumber

def isFinite : JsonNumber → Bool
  | natural n => (Magnitude.ofDigits (Nat.toDigits 10 n) [] 0).isFinite
  | real _ magnitude => magnitude.isFinite

end JsonNumber

end Countersign
