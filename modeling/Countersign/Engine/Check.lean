import Countersign.Engine.State
import Countersign.MetaTx.Step

/-!
# What the engine requires

The conditions under which the engine's entry points go ahead. Each faults on the first one that does
not hold and changes nothing.
-/

namespace Countersign

open MetaTx (MetaStep)

/-! ## Requests and payments -/

/-- What is wrong with a request's execution. Requests of the governing operation type, and only
those, call the engine, without value and with a valid update. Of the others, a call needs a target
and a function or payload, and without a call there is no value. -/
def executionFlaw? (engine : Identity) (r : Request) : Option ExecutionFlaw :=
  if ¬(r.target = engine ↔ r.operation = Governance.operation) then some .engineTarget
  else if r.target = engine then
    if r.value ≠ 0 then some .engineValue
    else
      match r.execution with
      | .standard selector params =>
        if selector ≠ Governance.setPeriod then some .engineFunction
        else
          match Governance.PeriodUpdate.decode? params with
          | some u => if u.period = 0 then some .enginePeriod else none
          | none => some .engineParams
      | _ => some .engineForm
  else
    match r.execution with
    | .none => if r.value ≠ 0 then some .valueWithoutCall else none
    | .standard selector _ =>
      if selector.isZero then some .zeroSelector
      else if r.target.isZero then some .zeroTarget
      else none
    | .raw payload =>
      if payload.isEmpty then some .emptyPayload
      else if r.target.isZero then some .zeroTarget
      else none

def paymentFlaw? (engine : Identity) (r : Request) (p : Payment) : Option PaymentFlaw :=
  if r.target = engine then some .engineTarget
  else if p.recipient.isZero && !p.isEmpty then some .zeroRecipient
  else if p.token.isNone && p.tokenAmount != 0 then some .noToken
  else none

namespace Engine

variable (e : Engine)

def requireExecution (r : Request) : Except Fault Unit :=
  match executionFlaw? e.identity r with
  | some flaw => .error (.invalidExecution flaw)
  | none => .ok ()

def requirePayment (r : Request) (p : Payment) : Except Fault Unit :=
  match paymentFlaw? e.identity r p with
  | some flaw => .error (.invalidPayment flaw)
  | none => .ok ()

/-! ## Registrations, workflows and grants -/

def requireOperation (operation : OperationType) : Except Fault Unit :=
  ensure (e.catalog.contains operation = true) (.invalidOperationType operation)

/-- The handler must be a declared function of the operation type that supports the actions. -/
def requireHandler (handler : Selector) (operation : OperationType) (actions : List Action) :
    Except Fault Unit := do
  let schema ← e.access.function handler
  ensure (schema.operation = operation) (.handlerMismatch handler schema.operation operation)
  AccessRegistry.requireSupport schema handler actions

/-- The history with an action and those after it must be on a declared path. -/
def requireWorkflow (operation : OperationType) (history : List Action) (action : Action)
    (rest : List Action) : Except Fault Unit :=
  ensure (e.catalog.permits operation (history ++ action :: rest) = true)
    (.workflowViolation operation action)

def requireGrant (identity : Identity) (selector : Selector) (action : Action) :
    Except Fault Unit :=
  ensure (e.access.allows identity selector action = true) (.unauthorized identity selector action)

/-! ## The delay track -/

def checkRequest (handler : Selector) (r : Request) : Except Fault UInt64 := do
  e.requireOperation r.operation
  e.requireHandler handler r.operation [.timeDelayRequest]
  e.requireWorkflow r.operation [] .timeDelayRequest []
  e.requireExecution r
  e.requireGrant r.requester handler .timeDelayRequest
  e.timelock.releaseTime r.operation e.clock

def checkPayment (id : TxId) (caller : Identity) (p : Payment) : Except Fault Unit := do
  let r ← e.ledger.pendingRecord id
  ensure (r.request.requester = caller) (.notRequester id caller)
  e.requirePayment r.request p

def checkApproval (id : TxId) (caller : Identity) : Except Fault Record := do
  let r ← e.ledger.pendingRecord id
  e.requireGrant caller r.handler .timeDelayApprove
  e.requireWorkflow r.operation r.history .timeDelayApprove []
  requireReleased id r.releaseTime e.clock
  return r

def checkCancellation (id : TxId) (caller : Identity) : Except Fault Record := do
  let r ← e.ledger.pendingRecord id
  e.requireGrant caller r.handler .timeDelayCancel
  e.requireWorkflow r.operation r.history .timeDelayCancel []
  e.timelock.requireCancellable id r.operation r.releaseTime e.clock
  return r

/-! ## The meta-transaction track -/

def requireStep (step : MetaStep) (action : Action) : Except Fault Unit :=
  ensure (action = step.signing) (.actionMismatch step.signing action)

/-- Signer and relayer must be granted the actions of the step. -/
def requirePair (step : MetaStep) (handler : Selector) (signer relayer : Identity) :
    Except Fault Unit := do
  e.requireGrant signer handler step.signing
  e.requireGrant relayer handler step.executing

/-- The conditions of a step on a pending record; gives the record. A replayed payload is reported as
such even when the record is closed. -/
def checkClosing (step : MetaStep) (tx : MetaTx.Signed) (relay : MetaTx.Relay) :
    Except Fault Record := do
  requireStep step tx.terms.action
  e.verifier.check tx e.clock relay.gasPrice
  let r ← e.ledger.pendingRecord tx.snapshot.txId
  ensure (MetaTx.Snapshot.ofRecord r = tx.snapshot) (.snapshotMismatch tx.snapshot.txId)
  e.requireHandler tx.terms.handler r.operation step.pair
  e.requireWorkflow r.operation r.history step.signing [step.executing]
  e.requirePair step tx.terms.handler tx.terms.signer relay.relayer
  return r

/-- The payment of a snapshot, if there is one, must suit its request. -/
def requireSnapshotPayment (s : MetaTx.Snapshot) : Except Fault Unit :=
  match s.payment with
  | none => .ok ()
  | some p => e.requirePayment s.request p

def checkOpening (tx : MetaTx.Signed) (relay : MetaTx.Relay) : Except Fault UInt64 := do
  let step := MetaStep.requestAndApprove
  let r := tx.snapshot.request
  requireStep step tx.terms.action
  ensure (tx.snapshot.txId.isAllocated = false) (.snapshotMismatch tx.snapshot.txId)
  ensure (r.requester = tx.terms.signer) (.requesterMismatch r.requester tx.terms.signer)
  e.requireOperation r.operation
  e.requireHandler tx.terms.handler r.operation step.pair
  e.requireWorkflow r.operation [] step.signing [step.executing]
  e.requireExecution r
  e.requireSnapshotPayment tx.snapshot
  e.verifier.check tx e.clock relay.gasPrice
  e.requirePair step tx.terms.handler tx.terms.signer relay.relayer
  e.timelock.releaseTime r.operation e.clock

end Engine

end Countersign
