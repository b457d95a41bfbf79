import Countersign.Data.Checked
import Countersign.Data.SortedMap
import Countersign.Fault
import Countersign.MetaTx.Payload

/-!
# Verifying payloads

`Nonces` counts the accepted payloads of each signer. A `Verifier` checks a payload against its own
chain and identity and against the signer's nonce, without changing anything; `consume` then uses up
the nonce.
-/

namespace Countersign.MetaTx

/-! ## Nonces -/

/-- The next nonce of each signer; a signer without entry is at zero. -/
structure Nonces where
  counters : SortedMap Identity UInt64
  deriving DecidableEq, Repr

namespace Nonces

def empty : Nonces := ⟨.empty⟩

def current (n : Nonces) (signer : Identity) : UInt64 := (n.counters.get? signer).getD 0

/-- Faults unless the nonce is the signer's next one. -/
def requireNext (n : Nonces) (signer : Identity) (nonce : UInt64) : Except Fault Unit :=
  ensure (nonce = n.current signer) (.nonceReplayed signer (n.current signer) nonce)

/-- Uses up the signer's next nonce and gives the one after. -/
def consume (n : Nonces) (signer : Identity) (nonce : UInt64) :
    Except Fault (Nonces × UInt64) := do
  n.requireNext signer nonce
  match add? nonce 1 with
  | none => throw (.internal (.nonceOverflow signer))
  | some next => return (⟨n.counters.insert signer next⟩, next)

end Nonces

/-! ## The verifier -/

/-- Where payloads are valid, and the nonces. -/
structure Verifier where
  chainId : UInt64
  identity : Identity
  nonces : Nonces
  deriving DecidableEq, Repr

namespace Verifier

def create (chainId : UInt64) (identity : Identity) : Verifier := ⟨chainId, identity, .empty⟩

def nonce (v : Verifier) (signer : Identity) : UInt64 := v.nonces.current signer

def terms (v : Verifier) (handler : Selector) (action : Action) (deadline : UInt64)
    (maxGasPrice : Amount) (signer : Identity) : Terms where
  chainId := v.chainId
  contract := v.identity
  handler := handler
  action := action
  deadline := deadline
  maxGasPrice := maxGasPrice
  signer := signer
  nonce := v.nonce signer

def requireSignature (signer : Identity) (g : Digest) (signature : Bytes) : Except Fault Unit :=
  match verifyDigest signer g signature with
  | .ok () => .ok ()
  | .error refusal => .error (.invalidSignature refusal)

/-- All checks of a payload at a time and a gas price. -/
def check (v : Verifier) (tx : Signed) (now : UInt64) (gasPrice : Amount) : Except Fault Unit := do
  let t := tx.terms
  let g := digest tx.snapshot t
  ensure (t.chainId = v.chainId) (.chainMismatch v.chainId t.chainId)
  ensure (t.contract = v.identity) (.contractMismatch t.contract)
  ensure (g = tx.digest) .digestMismatch
  ensure (tx.callData = callData t.handler g) .callDataMismatch
  requireSignature t.signer g tx.signature
  ensure (now ≤ t.deadline) (.expired t.deadline now)
  ensure (t.maxGasPrice = 0 ∨ gasPrice ≤ t.maxGasPrice) (.gasPriceExceeded t.maxGasPrice gasPrice)
  v.nonces.requireNext t.signer t.nonce

def consume (v : Verifier) (tx : Signed) : Except Fault (Verifier × UInt64) := do
  let (nonces, next) ← v.nonces.consume tx.terms.signer tx.terms.nonce
  return ({ v with nonces }, next)

def verify (v : Verifier) (tx : Signed) (now : UInt64) (gasPrice : Amount) :
    Except Fault (Verifier × UInt64) := do
  v.check tx now gasPrice
  v.consume tx

end Verifier

end Countersign.MetaTx
