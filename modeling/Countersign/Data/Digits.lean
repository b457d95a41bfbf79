/-!
# Digits

The digits of the bases up to 16, in either case, and the numbers of sequences of them.
-/

namespace Countersign

def hexValue? (c : Char) : Option Nat :=
  if '0' ≤ c ∧ c ≤ '9' then some (c.toNat - 48)
  else if 'a' ≤ c ∧ c ≤ 'f' then some (c.toNat - 87)
  else if 'A' ≤ c ∧ c ≤ 'F' then some (c.toNat - 55)
  else none

/-- Whether a character is a digit of a base up to 16. -/
def isDigitOf (base : Nat) (c : Char) : Bool :=
  match hexValue? c with
  | some n => decide (n < base)
  | none => false

/-- The number of a sequence of digits; all else counts as zero. -/
def numberOf (base : Nat) (digits : List Char) : Nat :=
  digits.foldl (fun n c => base * n + (hexValue? c).getD 0) 0

def hexNumber? (digits : List Char) : Option Nat :=
  if digits.all (isDigitOf 16) then some (numberOf 16 digits) else none

end Countersign
