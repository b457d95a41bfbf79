import Countersign.Json.Value

/-!
# Writing JSON

`Json.render` writes a value without blanks. In texts the quote, the backslash and the control
characters are escaped, with one letter where there is one; all else stands as it is.
-/

namespace Countersign.Json

def hexDigit (n : Nat) : Char := if n < 10 then Char.ofNat (48 + n) else Char.ofNat (87 + n)

def escapeUnit (n : Nat) : List Char :=
  ['\\', 'u', hexDigit (n / 4096 % 16), hexDigit (n / 256 % 16), hexDigit (n / 16 % 16),
    hexDigit (n % 16)]

def escapeChar (c : Char) : List Char :=
  if c = '"' then ['\\', '"']
  else if c = '\\' then ['\\', '\\']
  else if c = '\x08' then ['\\', 'b']
  else if c = '\x0c' then ['\\', 'f']
  else if c = '\n' then ['\\', 'n']
  else if c = '\r' then ['\\', 'r']
  else if c = '\t' then ['\\', 't']
  else if c.toNat < 32 then escapeUnit c.toNat
  else [c]

/-- A text in quotes; one that is none is written as half of a surrogate pair. -/
def writeText : JsonText → List Char
  | some s => '"' :: (s.toList.flatMap escapeChar ++ ['"'])
  | none => '"' :: (escapeUnit 0xD800 ++ ['"'])

def writeNat (n : Nat) : List Char := Nat.toDigits 10 n

def writeInt (n : Int) : List Char :=
  if n < 0 then '-' :: writeNat n.natAbs else writeNat n.natAbs

def writeNumber : JsonNumber → List Char
  | .natural n => writeNat n
  | .real negative m =>
    (if negative then ['-'] else []) ++ writeNat m.significand.toNat ++ 'e' :: writeInt m.exponent

mutual

def write : Json → List Char
  | null => "null".toList
  | bool true => "true".toList
  | bool false => "false".toList
  | number n => writeNumber n
  | string s => writeText s
  | array [] => ['[', ']']
  | array (x :: xs) => '[' :: (write x ++ writeElements xs)
  | object [] => ['\x7b', '\x7d']
  | object ((k, v) :: ms) => '\x7b' :: (writeText k ++ ':' :: (write v ++ writeMembers ms))

/-- The elements after the first, and the bracket. -/
def writeElements : List Json → List Char
  | [] => [']']
  | x :: xs => ',' :: (write x ++ writeElements xs)

/-- The members after the first, and the brace. -/
def writeMembers : List (JsonText × Json) → List Char
  | [] => ['\x7d']
  | (k, v) :: ms => ',' :: (writeText k ++ ':' :: (write v ++ writeMembers ms))

end

def render (j : Json) : String := String.ofList j.write

end Countersign.Json
