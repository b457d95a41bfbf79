import Countersign.Hash.Blake3

/-!
# Canonical encoding

A list of typed `Field`s under a domain tag becomes one byte string, the `preimage`, which is then
hashed. Numbers have a fixed width, least significant byte first; a `fixed` field stands as it is; a
`sized` field and the domain have their length in front; an optional field has a presence byte.
-/

namespace Countersign.Canonical

inductive Field where
  | byte (v : UInt8)
  | word (v : UInt64)
  | amount (v : BitVec 128)
  | fixed (bs : Bytes)
  | sized (bs : Bytes)
  | absent
  | present (f : Field)
  deriving DecidableEq, Repr

/-- A byte string with its length in front. -/
def withLength (bs : Bytes) : Bytes := leBytes 8 bs.length ++ bs

def Field.encode : Field → Bytes
  | byte v => [v]
  | word v => leBytes 8 v.toNat
  | amount v => leBytes 16 v.toNat
  | fixed bs => bs
  | sized bs => withLength bs
  | absent => [0]
  | present f => 1 :: f.encode

/-- The bytes that are hashed for fields under a domain tag. -/
def preimage (domain : String) (fields : List Field) : Bytes :=
  withLength (utf8 domain) ++ fields.flatMap Field.encode

def hash (domain : String) (fields : List Field) : FixedBytes 32 :=
  Blake3.hash (preimage domain fields)

end Countersign.Canonical
