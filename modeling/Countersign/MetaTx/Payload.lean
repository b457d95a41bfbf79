import Countersign.Data.Canonical
import Countersign.Transaction

/-!
# Meta-transaction payloads

A signer commits to a `Snapshot` of a record and to `Terms` by signing their `digest`; the relayer
submits the `Signed` payload as it is. `digest` hashes the `preimage`, in which every field of
snapshot and terms stands.
-/

namespace Countersign.MetaTx

/-- What a signer commits to besides the record. -/
structure Terms where
  chainId : UInt64
  /-- The engine that is to accept the payload. -/
  contract : Identity
  handler : Selector
  action : Action
  /-- The last second at which the payload is accepted. -/
  deadline : UInt64
  /-- The highest gas price for the relay; zero for any. -/
  maxGasPrice : Amount
  signer : Identity
  nonce : UInt64
  deriving DecidableEq, Repr

/-- A record as the signer saw it; its number is unallocated for a record yet to come. -/
structure Snapshot where
  txId : TxId
  request : Request
  payment : Option Payment
  deriving DecidableEq, Repr

/-- The snapshot of a record yet to come. -/
def Snapshot.ofRequest (request : Request) : Snapshot := ⟨.unallocated, request, none⟩

def Snapshot.ofRecord (r : Record) : Snapshot := ⟨r.id, r.request, r.payment⟩

structure Draft where
  snapshot : Snapshot
  terms : Terms
  digest : Digest
  callData : Bytes
  deriving DecidableEq, Repr

/-- A payload as a relayer submits it. -/
structure Signed where
  snapshot : Snapshot
  terms : Terms
  digest : Digest
  signature : Bytes
  callData : Bytes
  deriving DecidableEq, Repr

def Draft.withSignature (d : Draft) (signature : Bytes) : Signed :=
  ⟨d.snapshot, d.terms, d.digest, signature, d.callData⟩

/-! ## The digest -/

open Canonical (Field)

def domain : String := "bastion-metatx-v1"

def executionFields : Execution → List Field
  | .none => []
  | .standard selector params => [.fixed selector.bytes.toList, .sized params]
  | .raw payload => [.sized payload]

def tokenField : Option Identity → Field
  | none => .absent
  | some token => .present (.fixed token.bytes.toList)

def paymentFields : Option Payment → List Field
  | none => [.absent]
  | some p =>
    [.byte 1, .fixed p.recipient.bytes.toList, .amount p.nativeAmount, tokenField p.token,
      .amount p.tokenAmount]

def requestFields (r : Request) : List Field :=
  [.fixed r.requester.bytes.toList, .fixed r.target.bytes.toList, .amount r.value,
    .word r.gasLimit, .fixed r.operation.bytes.toList, .byte r.execution.kind.ordinal] ++
    executionFields r.execution

/-- The fields of a commitment: where it is valid, the record, then the terms. -/
def fields (s : Snapshot) (t : Terms) : List Field :=
  [.word t.chainId, .fixed t.contract.bytes.toList, .word t.nonce, .word s.txId.number] ++
    requestFields s.request ++ paymentFields s.payment ++
    [.fixed t.handler.bytes.toList, .byte t.action.ordinal, .word t.deadline,
      .amount t.maxGasPrice, .fixed t.signer.bytes.toList]

/-- The bytes whose hash is signed. -/
def preimage (s : Snapshot) (t : Terms) : Bytes := Canonical.preimage domain (fields s t)

def digest (s : Snapshot) (t : Terms) : Digest := ⟨Canonical.hash domain (fields s t)⟩

/-- What a relayer calls: the handler's selector, then the digest. -/
def callData (handler : Selector) (g : Digest) : Bytes := handler.bytes.toList ++ g.bytes.toList

def Draft.of (s : Snapshot) (t : Terms) : Draft :=
  ⟨s, t, MetaTx.digest s t, MetaTx.callData t.handler (MetaTx.digest s t)⟩

end Countersign.MetaTx
