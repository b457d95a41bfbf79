import Countersign.Identifier
import Countersign.Signature.Ed25519

/-!
# Signed digests

A `SigningKey` is a 32-byte seed; the identity that goes with it is its public key. `verifyDigest`
checks a signature over a digest against the identity of the signer.
-/

namespace Countersign

/-- A key pair, given by its seed. -/
structure SigningKey where
  seed : FixedBytes 32

namespace SigningKey

def identity (k : SigningKey) : Identity := ⟨Ed25519.publicKey k.seed⟩

def sign (k : SigningKey) (g : Digest) : Bytes := Ed25519.sign k.seed g.bytes.toList

/-- The diagnostic text, which keeps the seed to itself. -/
def inspect (k : SigningKey) : String :=
  "SigningIdentity \x7b identity: " ++ k.identity.inspect ++ ", .. \x7d"

end SigningKey

def verifyDigest (signer : Identity) (g : Digest) (signature : Bytes) :
    Except Ed25519.Refusal Unit :=
  Ed25519.verify signer.bytes g.bytes.toList signature

def Ed25519.Refusal.message : Ed25519.Refusal → String
  | .malformed length => "signature must be 64 bytes, got " ++ toString length
  | .badKey => "identity is not a valid Ed25519 verifying key"
  | .mismatch => "signature verification failed"

end Countersign
