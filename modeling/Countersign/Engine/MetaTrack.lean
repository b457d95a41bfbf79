import Countersign.Engine.DelayTrack

/-!
# The meta-transaction track

A signer commits to a record and a relayer submits the signed payload, which closes a pending record
or opens and closes one at once. The signer's nonce is used up before anything else changes.
-/

namespace Countersign.Engine

open MetaTx (MetaStep)

variable (e : Engine)

/-! ## Preparing payloads -/

def terms (handler : Selector) (action : Action) (deadline : UInt64) (maxGasPrice : Amount)
    (signer : Identity) : MetaTx.Terms :=
  e.verifier.terms handler action deadline maxGasPrice signer

/-- The payload, yet to be signed, that approves or cancels a pending record. -/
def prepareClosing (id : TxId) (t : MetaTx.Terms) : Except Fault MetaTx.Draft := do
  let r ← e.ledger.pendingRecord id
  match MetaStep.closing? t.action with
  | none => throw (.actionMismatch MetaStep.approve.signing t.action)
  | some step =>
    e.requireHandler t.handler r.operation step.pair
    return .of (.ofRecord r) t

/-- The payload, yet to be signed, that opens and approves a record. -/
def prepareOpening (r : Request) (t : MetaTx.Terms) : Except Fault MetaTx.Draft := do
  requireStep .requestAndApprove t.action
  e.requireOperation r.operation
  e.requireHandler t.handler r.operation MetaStep.requestAndApprove.pair
  e.requireExecution r
  return .of (.ofRequest r) t

/-! ## Submitting payloads -/

/-- Approves a pending record before its release and carries it out. -/
def approveSigned (tx : MetaTx.Signed) (relay : MetaTx.Relay) : Engine × Except Fault Record :=
  let id := tx.snapshot.txId
  e.attempt (e.checkClosing .approve tx relay) fun r =>
  e.attempt (e.verifier.consume tx) fun (verifier, _) =>
  let e := { e with verifier }
  e.attempt (e.ledger.recordActions id MetaStep.approve.pair) fun ledger =>
  ({ e with ledger }.emit id r.operation
    (.approved tx.terms.signer MetaStep.approve.signing)).carryOut id (some tx.digest)

def cancelSigned (tx : MetaTx.Signed) (relay : MetaTx.Relay) : Engine × Except Fault Record :=
  let id := tx.snapshot.txId
  e.attempt (e.checkClosing .cancel tx relay) fun r =>
  e.attempt (e.verifier.consume tx) fun (verifier, _) =>
  let e := { e with verifier }
  e.attempt (e.ledger.recordActions id MetaStep.cancel.pair) fun ledger =>
  { e with ledger }.callOff id r.operation tx.terms.signer MetaStep.cancel.signing
    (some tx.digest)

def attachSnapshotPayment (l : Ledger) (id : TxId) (s : MetaTx.Snapshot) : Except Fault Ledger :=
  match s.payment with
  | none => .ok l
  | some p => l.attachPayment id p

def requestSigned (tx : MetaTx.Signed) (relay : MetaTx.Relay) : Engine × Except Fault Record :=
  let step := MetaStep.requestAndApprove
  let r := tx.snapshot.request
  e.attempt (e.checkOpening tx relay) fun releaseTime =>
  e.attempt (e.verifier.consume tx) fun (verifier, _) =>
  let e := { e with verifier }
  let (ledger, opened) := e.ledger.insert r tx.terms.handler e.clock releaseTime step.signing
  let e := { e with ledger }
  e.attempt opened fun id =>
  e.attempt (attachSnapshotPayment e.ledger id tx.snapshot) fun ledger =>
  let e := { e with ledger }
  e.attempt (e.ledger.recordActions id [step.executing]) fun ledger =>
  let e := { e with ledger }
  let e := e.emit id r.operation (.requested r.requester releaseTime)
  let e := e.emit id r.operation (.approved tx.terms.signer step.signing)
  e.carryOut id (some tx.digest)

end Countersign.Engine
