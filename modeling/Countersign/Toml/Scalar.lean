import Countersign.Data.Double
import Countersign.Toml.Text
import Countersign.Toml.Value

/-!
# TOML numbers, date-times and truth values

Integers have 64 bits; digits may have single underscores between them. A float that is too large for a
double is refused, unless it is negative. A date-time is a date, a time, or both with an offset.
-/

namespace Countersign.Toml

def readWord : List Char → List Char → Option (List Char)
  | [], cs => some cs
  | w :: ws, c :: cs => if w = c then readWord ws cs else none
  | _ :: _, [] => none

/-- The digits of a base that come next, without the underscores between them. -/
def digitRun (base : Nat) : List Char → List Char × List Char
  | '_' :: c :: cs =>
    if isDigitOf base c then
      let (ds, rest) := digitRun base cs
      (c :: ds, rest)
    else ([], '_' :: c :: cs)
  | c :: cs =>
    if isDigitOf base c then
      let (ds, rest) := digitRun base cs
      (c :: ds, rest)
    else ([], c :: cs)
  | [] => ([], [])

def readDigits (base : Nat) : List Char → Option (List Char × List Char)
  | '_' :: _ => none
  | cs =>
    match digitRun base cs with
    | ([], _) => none
    | r => some r

/-- A sign, if there is one; true for a minus. -/
def readSign : List Char → Option Bool × List Char
  | '-' :: cs => (some true, cs)
  | '+' :: cs => (some false, cs)
  | cs => (none, cs)

/-- Decimal digits of which only a single one may be a zero in front. -/
def readWhole (cs : List Char) : Option (List Char × List Char) :=
  match cs with
  | '0' :: rest => some (['0'], rest)
  | cs => readDigits 10 cs

/-! ## Integers -/

def integer? (n : Int) : Option Toml :=
  if Int64.minValue.toInt ≤ n ∧ n ≤ Int64.maxValue.toInt then some (.integer n) else none

def readUnsigned (base : Nat) (cs : List Char) : Option (Toml × List Char) := do
  let (ds, rest) ← readDigits base cs
  return (← integer? (numberOf base ds), rest)

def readInteger : List Char → Option (Toml × List Char)
  | '0' :: 'x' :: cs => readUnsigned 16 cs
  | '0' :: 'o' :: cs => readUnsigned 8 cs
  | '0' :: 'b' :: cs => readUnsigned 2 cs
  | cs => do
    let (sign, cs) := readSign cs
    let (ds, rest) ← readWhole cs
    let n : Int := numberOf 10 ds
    return (← integer? (if sign = some true then -n else n), rest)

/-! ## Floats -/

def readFraction : List Char → Option (Option (List Char) × List Char)
  | '.' :: cs => (readDigits 10 cs).map fun (ds, rest) => (some ds, rest)
  | cs => some (none, cs)

def readPower (cs : List Char) : Option (Option Int × List Char) := do
  let (sign, cs) := readSign cs
  let (ds, rest) ← readDigits 10 cs
  let n : Int := numberOf 10 ds
  return (some (if sign = some true then -n else n), rest)

def readExponent : List Char → Option (Option Int × List Char)
  | 'e' :: cs => readPower cs
  | 'E' :: cs => readPower cs
  | cs => some (none, cs)

def readDecimal (cs : List Char) : Option (Toml × List Char) := do
  let (sign, cs) := readSign cs
  let (whole, cs) ← readWhole cs
  let (fraction, cs) ← readFraction cs
  let (exponent, cs) ← readExponent cs
  if fraction.isNone && exponent.isNone then none
  let after := fraction.getD []
  let mantissa := numberOf 10 (whole ++ after)
  if sign = some true ∨ Double.isFinite mantissa (exponent.getD 0 - after.length) then
    return (.float, cs)
  none

/-- Infinity or no number, with or without a sign. -/
def readSpecial (cs : List Char) : Option (Toml × List Char) :=
  let cs := (readSign cs).2
  (((readWord "inf".toList cs).or (readWord "nan".toList cs))).map fun rest => (.float, rest)

def readFloat (cs : List Char) : Option (Toml × List Char) := (readDecimal cs).or (readSpecial cs)

/-! ## Date-times -/

def readFixed (k : Nat) (cs : List Char) : Option (Nat × List Char) :=
  let ds := cs.take k
  if ds.length = k ∧ ds.all (isDigitOf 10) then some (numberOf 10 ds, cs.drop k) else none

def readBetween (low high : Nat) (cs : List Char) : Option (Nat × List Char) := do
  let (n, cs) ← readFixed 2 cs
  if low ≤ n ∧ n ≤ high then return (n, cs)
  none

def isLeapYear (year : Nat) : Bool := year % 4 == 0 && (year % 100 != 0 || year % 400 == 0)

def daysIn (year month : Nat) : Nat :=
  if month = 2 then if isLeapYear year then 29 else 28
  else if month = 4 ∨ month = 6 ∨ month = 9 ∨ month = 11 then 30
  else 31

def afterDate (cs : List Char) : Option (List Char) := do
  let (year, cs) ← readFixed 4 cs
  let cs ← readWord ['-'] cs
  let (month, cs) ← readBetween 1 12 cs
  let cs ← readWord ['-'] cs
  let (_, cs) ← readBetween 1 (daysIn year month) cs
  return cs

def afterFraction : List Char → List Char
  | '.' :: c :: cs => if c.isDigit then cs.dropWhile Char.isDigit else '.' :: c :: cs
  | cs => cs

def afterTime (cs : List Char) : Option (List Char) := do
  let (_, cs) ← readBetween 0 23 cs
  let cs ← readWord [':'] cs
  let (_, cs) ← readBetween 0 59 cs
  let cs ← readWord [':'] cs
  let (_, cs) ← readBetween 0 60 cs
  return afterFraction cs

def afterHours (cs : List Char) : Option (List Char) := do
  let (_, cs) ← readBetween 0 23 cs
  let cs ← readWord [':'] cs
  let (_, cs) ← readBetween 0 59 cs
  return cs

def afterOffset : List Char → List Char
  | 'Z' :: cs => cs
  | 'z' :: cs => cs
  | '+' :: cs => (afterHours cs).getD ('+' :: cs)
  | '-' :: cs => (afterHours cs).getD ('-' :: cs)
  | cs => cs

def afterClock : List Char → List Char
  | c :: cs =>
    if c = 'T' ∨ c = 't' ∨ c = ' ' then
      match afterTime cs with
      | some rest => afterOffset rest
      | none => c :: cs
    else c :: cs
  | [] => []

/-- A date, with or without a time, or a time. -/
def readDateTime (cs : List Char) : Option (Toml × List Char) :=
  match afterDate cs with
  | some rest => some (.dateTime, afterClock rest)
  | none => (afterTime cs).map fun rest => (.dateTime, rest)

/-! ## Scalars -/

/-- A truth value, a date-time, a float or an integer. -/
def readScalar (cs : List Char) : Option (Toml × List Char) :=
  match cs with
  | 't' :: cs => (readWord "rue".toList cs).map fun rest => (.boolean true, rest)
  | 'f' :: cs => (readWord "alse".toList cs).map fun rest => (.boolean false, rest)
  | cs => ((readDateTime cs).or (readFloat cs)).or (readInteger cs)

end Countersign.Toml
