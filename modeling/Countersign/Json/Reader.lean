import Countersign.Data.Digits
import Countersign.Json.Value

/-!
# Reading JSON

`Json.parse?` reads one value with blanks around it. The readers of the parts take a list of characters
and give what they have read and the rest.
-/

namespace Countersign.Json

def isBlank (c : Char) : Bool := c == ' ' || c == '\n' || c == '\r' || c == '\t'

def skipBlanks (cs : List Char) : List Char := cs.dropWhile isBlank

/-! ## Texts -/

/-- A part of a text: a character, or a sixteen-bit unit given by its number. -/
inductive TextPart where
  | char (c : Char)
  | unit (n : Nat)
  deriving DecidableEq, Repr

def escaped? (c : Char) : Option Char :=
  match c with
  | '"' => some '"'
  | '\\' => some '\\'
  | '/' => some '/'
  | 'b' => some '\x08'
  | 'f' => some '\x0c'
  | 'n' => some '\n'
  | 'r' => some '\r'
  | 't' => some '\t'
  | _ => none

/-- The parts of a text up to its closing quote. -/
def readParts : List Char → Option (List TextPart × List Char)
  | [] => none
  | '"' :: rest => some ([], rest)
  | '\\' :: 'u' :: a :: b :: c :: d :: rest =>
    match hexNumber? [a, b, c, d] with
    | none => none
    | some n => (readParts rest).map fun (parts, rest) => (.unit n :: parts, rest)
  | '\\' :: c :: rest =>
    match escaped? c with
    | none => none
    | some c => (readParts rest).map fun (parts, rest) => (.char c :: parts, rest)
  | c :: rest =>
    if c.toNat < 32 ∨ c = '\\' then none
    else (readParts rest).map fun (parts, rest) => (.char c :: parts, rest)

/-- The characters of parts. Units of a surrogate pair make one character; half a pair is none. -/
def joinParts : List TextPart → Option (List Char)
  | [] => some []
  | .char c :: rest => (joinParts rest).map (c :: ·)
  | .unit high :: .unit low :: rest =>
    if 0xD800 ≤ high ∧ high < 0xDC00 then
      if 0xDC00 ≤ low ∧ low < 0xE000 then
        let c := Char.ofNat (0x10000 + (high - 0xD800) * 0x400 + (low - 0xDC00))
        (joinParts rest).map (c :: ·)
      else none
    else if 0xDC00 ≤ high ∧ high < 0xE000 then none
    else (joinParts (.unit low :: rest)).map (Char.ofNat high :: ·)
  | .unit n :: rest =>
    if 0xD800 ≤ n ∧ n < 0xE000 then none else (joinParts rest).map (Char.ofNat n :: ·)

def readText (cs : List Char) : Option (JsonText × List Char) :=
  (readParts cs).map fun (parts, rest) => ((joinParts parts).map String.ofList, rest)

/-! ## Numbers -/

def decimal (ds : List Char) : Nat := Nat.ofDigitChars 10 ds 0

def readDigits (cs : List Char) : Option (List Char × List Char) :=
  match cs.takeWhile Char.isDigit with
  | [] => none
  | ds => some (ds, cs.dropWhile Char.isDigit)

/-- The digits before the point: no zero in front of others. -/
def readWhole (cs : List Char) : Option (List Char × List Char) :=
  match readDigits cs with
  | some ('0' :: _ :: _, _) => none
  | r => r

/-- The digits after the point, if there is one. -/
def readFraction : List Char → Option (Option (List Char) × List Char)
  | '.' :: cs => (readDigits cs).map fun (ds, rest) => (some ds, rest)
  | cs => some (none, cs)

/-- The power of ten, if one is given. -/
def readExponent : List Char → Option (Option Int × List Char)
  | 'e' :: cs => signed cs
  | 'E' :: cs => signed cs
  | cs => some (none, cs)
where
  signed : List Char → Option (Option Int × List Char)
    | '-' :: cs => (readDigits cs).map fun (ds, rest) => (some (-(decimal ds : Int)), rest)
    | '+' :: cs => (readDigits cs).map fun (ds, rest) => (some (decimal ds : Int), rest)
    | cs => (readDigits cs).map fun (ds, rest) => (some (decimal ds : Int), rest)

def readMagnitude (negative : Bool) (cs : List Char) : Option (JsonNumber × List Char) := do
  let (whole, cs) ← readWhole cs
  let (fraction, cs) ← readFraction cs
  let (exponent, cs) ← readExponent cs
  match negative, fraction, exponent with
  | false, none, none => return (.natural (decimal whole), cs)
  | _, _, _ =>
    return (.real negative (.ofDigits whole (fraction.getD []) (exponent.getD 0)), cs)

def readNumber : List Char → Option (JsonNumber × List Char)
  | '-' :: cs => readMagnitude true cs
  | cs => readMagnitude false cs

/-! ## Values -/

def readWord : List Char → List Char → Option (List Char)
  | [], cs => some cs
  | w :: ws, c :: cs => if w = c then readWord ws cs else none
  | _ :: _, [] => none

def readKey (cs : List Char) : Option (JsonText × List Char) :=
  match skipBlanks cs with
  | '"' :: cs => do
    let (k, cs) ← readText cs
    match skipBlanks cs with
    | ':' :: cs => return (k, cs)
    | _ => none
  | _ => none

mutual

/-- A value; `fuel` bounds the nesting and the number of elements in what is read. -/
def readValue (fuel : Nat) (cs : List Char) : Option (Json × List Char) :=
  match fuel with
  | 0 => none
  | fuel + 1 =>
    match skipBlanks cs with
    | 'n' :: cs => (readWord "ull".toList cs).map fun rest => (null, rest)
    | 't' :: cs => (readWord "rue".toList cs).map fun rest => (bool true, rest)
    | 'f' :: cs => (readWord "alse".toList cs).map fun rest => (bool false, rest)
    | '"' :: cs => (readText cs).map fun (s, rest) => (string s, rest)
    | '[' :: cs =>
      match skipBlanks cs with
      | ']' :: cs => some (array [], cs)
      | cs => do
        let (x, cs) ← readValue fuel cs
        let (xs, cs) ← readElements fuel cs
        return (array (x :: xs), cs)
    | '\x7b' :: cs =>
      match skipBlanks cs with
      | '\x7d' :: cs => some (object [], cs)
      | cs => do
        let (k, cs) ← readKey cs
        let (v, cs) ← readValue fuel cs
        let (ms, cs) ← readMembers fuel cs
        return (object ((k, v) :: ms), cs)
    | cs => (readNumber cs).map fun (n, rest) => (number n, rest)

/-- The elements after the first, and the bracket. -/
def readElements (fuel : Nat) (cs : List Char) : Option (List Json × List Char) :=
  match fuel with
  | 0 => none
  | fuel + 1 =>
    match skipBlanks cs with
    | ']' :: cs => some ([], cs)
    | ',' :: cs => do
      let (x, cs) ← readValue fuel cs
      let (xs, cs) ← readElements fuel cs
      return (x :: xs, cs)
    | _ => none

/-- The members after the first, and the brace. -/
def readMembers (fuel : Nat) (cs : List Char) : Option (List (JsonText × Json) × List Char) :=
  match fuel with
  | 0 => none
  | fuel + 1 =>
    match skipBlanks cs with
    | '\x7d' :: cs => some ([], cs)
    | ',' :: cs => do
      let (k, cs) ← readKey cs
      let (v, cs) ← readValue fuel cs
      let (ms, cs) ← readMembers fuel cs
      return ((k, v) :: ms, cs)
    | _ => none

end

def parse? (s : String) : Option Json :=
  match readValue (s.toList.length + 1) s.toList with
  | some (j, rest) => if (skipBlanks rest).isEmpty then some j else none
  | none => none

end Countersign.Json
