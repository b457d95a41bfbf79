import Countersign.Hash.Sha512
import Countersign.Signature.Edwards25519

/-!
# Ed25519

Deterministic signatures over edwards25519. `sign` and `publicKey` work from a 32-byte seed;
`verify` follows the strict rule: the scalar is reduced, neither the key nor the commitment has small
order, and the commitment is exactly the one recomputed.
-/

namespace Countersign.Ed25519

open Edwards25519

structure Secret where
  scalar : Nat
  nonceKey : Bytes

/-- A number below `2^256`, cut to a multiple of 8 between `2^254` and `2^255`. -/
def clamp (n : Nat) : Nat := n % Nat.pow 2 254 / 8 * 8 + Nat.pow 2 254

def secret (seed : FixedBytes 32) : Secret :=
  let digest := (Sha512.hash seed.toList).toList
  ⟨clamp (ofLe (digest.take 32)), digest.drop 32⟩

def publicKey (seed : FixedBytes 32) : FixedBytes 32 := (Point.baseMul (secret seed).scalar).compress

/-- A hash as a number modulo the group order. -/
def hashScalar (bs : Bytes) : Nat := ofLe (Sha512.hash bs).toList % order

def sign (seed : FixedBytes 32) (message : Bytes) : Bytes :=
  let key := secret seed
  let r := hashScalar (key.nonceKey ++ message)
  let commitment := (Point.baseMul r).compress.toList
  let k := hashScalar (commitment ++ (publicKey seed).toList ++ message)
  commitment ++ leBytes 32 ((r + k * key.scalar) % order)

inductive Refusal where
  | malformed (length : Nat)
  | badKey
  | mismatch
  deriving DecidableEq, Repr

/-- Checks a signature over a message: first its length, then the key, then the equation. -/
def verify (key : FixedBytes 32) (message signature : Bytes) : Except Refusal Unit :=
  if signature.length ≠ 64 then .error (.malformed signature.length)
  else
    match Point.decompress? key with
    | none => .error .badKey
    | some a =>
      let commitment := signature.take 32
      let s := ofLe (signature.drop 32)
      let k := hashScalar (commitment ++ key.toList ++ message)
      let recomputed := (Point.baseMul s).add (a.neg.smul k)
      if s < order ∧ a.isSmallOrder = false ∧ recomputed.isSmallOrder = false ∧
          recomputed.compress.toList = commitment then .ok ()
      else .error .mismatch

end Countersign.Ed25519
