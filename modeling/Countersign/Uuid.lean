import Countersign.Data.Hex

/-!
# Unique identifiers

A `Uuid` is sixteen bytes. It is written as five groups of lower-case digits with hyphens between
them, and read from digits of either case: with all hyphens, also in braces or after `urn:uuid:` in
letters of either case, or with none.
-/

namespace Countersign

structure Uuid where
  bytes : FixedBytes 16
  deriving DecidableEq, Repr

namespace Uuid

/-- The digits in groups of 8, 4, 4, 4 and 12. -/
def hyphenate (digits : List Char) : List Char :=
  digits.take 8 ++ '-' :: (digits.drop 8).take 4 ++ '-' :: (digits.drop 12).take 4 ++
    '-' :: (digits.drop 16).take 4 ++ '-' :: digits.drop 20

def text (u : Uuid) : String := String.ofList (hyphenate (Hex.encodeChars u.bytes.toList))

def digits? (cs : List Char) : Option (List Char) :=
  let digits := cs.take 8 ++ (cs.drop 9).take 4 ++ (cs.drop 14).take 4 ++ (cs.drop 19).take 4 ++
    cs.drop 24
  if hyphenate digits = cs then some digits else none

/-- What may stand in front of the groups, in letters of either case. -/
def scheme : List Char := "urn:uuid:".toList

/-- A text without the braces around it or the scheme in front. -/
def bare : List Char → List Char
  | '\x7b' :: cs => if cs.getLast? = some '\x7d' then cs.dropLast else '\x7b' :: cs
  | cs => if (cs.take scheme.length).map Char.toLower = scheme then cs.drop scheme.length else cs

def ofDigits? (digits : List Char) : Option Uuid :=
  match Hex.decode (utf8 (String.ofList digits)) with
  | .ok bs => (FixedBytes.ofList? 16 bs).map Uuid.mk
  | .error _ => none

def ofText? (s : String) : Option Uuid :=
  if s.toList.length = 32 then ofDigits? s.toList else (digits? (bare s.toList)).bind ofDigits?

end Uuid

end Countersign
