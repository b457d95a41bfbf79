import Countersign.Data.Bytes

/-!
# Hexadecimal text

`encode` writes two lower-case digits a byte. `decode` reads digits of either case from the bytes of
a text; it refuses an odd number of bytes before it looks at any, and then the first byte that is no
digit.
-/

namespace Countersign.Hex

def digit (n : Nat) : Char := if n < 10 then Char.ofNat (48 + n) else Char.ofNat (87 + n)

def encodeChars (bs : Bytes) : List Char :=
  bs.flatMap fun b => [digit (b.toNat / 16), digit (b.toNat % 16)]

def encode (bs : Bytes) : String := String.ofList (encodeChars bs)

def value? (b : UInt8) : Option Nat :=
  let n := b.toNat
  if 48 ≤ n ∧ n ≤ 57 then some (n - 48)
  else if 65 ≤ n ∧ n ≤ 70 then some (n - 55)
  else if 97 ≤ n ∧ n ≤ 102 then some (n - 87)
  else none

inductive Error where
  | oddLength
  | badByte (byte : UInt8) (offset : Nat)
  deriving DecidableEq, Repr

def digitAt (offset : Nat) (b : UInt8) : Except Error Nat :=
  match value? b with
  | some n => .ok n
  | none => .error (.badByte b offset)

/-- Reads pairs of digits, the first of them at the given offset. -/
def decodePairs (offset : Nat) : Bytes → Except Error Bytes
  | [] => .ok []
  | [_] => .error .oddLength
  | a :: b :: rest => do
    let high ← digitAt offset a
    let low ← digitAt (offset + 1) b
    let tail ← decodePairs (offset + 2) rest
    return UInt8.ofNat (16 * high + low) :: tail

def decode (bs : Bytes) : Except Error Bytes :=
  if bs.length % 2 = 1 then .error .oddLength else decodePairs 0 bs

/-! ## Messages -/

/-- The escape `\u` with the number of a character in hexadecimal braces. -/
def unicodeEscape (n : Nat) : String :=
  "\\u\x7b" ++ String.ofList (Nat.toDigits 16 n) ++ "\x7d"

/-- A byte as the character of its number, in single quotes. -/
def quoteByte (b : UInt8) : String :=
  let n := b.toNat
  let inner :=
    if n = 0 then "\\0"
    else if n = 9 then "\\t"
    else if n = 10 then "\\n"
    else if n = 13 then "\\r"
    else if n = 39 then "\\'"
    else if n = 92 then "\\\\"
    else if n < 32 ∨ (127 ≤ n ∧ n ≤ 160) ∨ n = 173 then unicodeEscape n
    else String.singleton (Char.ofNat n)
  "'" ++ inner ++ "'"

def Error.message : Error → String
  | .oddLength => "Odd number of digits"
  | .badByte byte offset =>
    "Invalid character " ++ quoteByte byte ++ " at position " ++ toString offset

end Countersign.Hex
