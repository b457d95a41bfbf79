import Countersign.Engine.Check

/-!
# The delay track

A request waits for its release, is then approved and carried out, or is cancelled. Every entry point
gives the engine afterwards and the answer; a rejected call changes nothing before its conditions
hold.
-/

namespace Countersign.Engine

variable (e : Engine)

/-- Carries out a pending record and closes it, by a meta-transaction if there is a message. -/
def carryOut (id : TxId) (message : Option Digest) : Engine × Except Fault Record :=
  e.attempt (e.ledger.pendingRecord id) fun r =>
  let (timelock, dispatcher, outcome) :=
    execute e.identity Governance.handleCall e.timelock e.dispatcher r
  let e := { e with timelock, dispatcher }
  e.attempt (e.ledger.finalize id outcome.status outcome.result message) fun (ledger, final) =>
  ({ e with ledger }.emit id r.operation (.executed final.status final.result), .ok final)

/-- Closes a pending record without carrying it out. -/
def callOff (id : TxId) (operation : OperationType) (caller : Identity) (action : Action)
    (message : Option Digest) : Engine × Except Fault Record :=
  e.attempt (e.ledger.finalize id .cancelled [] message) fun (ledger, final) =>
  ({ e with ledger }.emit id operation (.cancelled caller action), .ok final)

def request (handler : Selector) (r : Request) : Engine × Except Fault TxId :=
  e.attempt (e.checkRequest handler r) fun releaseTime =>
  let (ledger, opened) := e.ledger.insert r handler e.clock releaseTime .timeDelayRequest
  let e := { e with ledger }
  e.attempt opened fun id =>
  (e.emit id r.operation (.requested r.requester releaseTime), .ok id)

def requestPeriod (caller : Identity) (u : Governance.PeriodUpdate) :
    Engine × Except Fault TxId :=
  e.request Governance.requestHandler (Governance.updateRequest e.identity caller u)

/-- Attaches a payment to a pending record of the caller's own. -/
def attachPayment (id : TxId) (caller : Identity) (p : Payment) : Engine × Except Fault Unit :=
  e.attempt (e.checkPayment id caller p) fun () =>
  e.attempt (e.ledger.attachPayment id p) fun ledger =>
  ({ e with ledger }, .ok ())

def approve (id : TxId) (caller : Identity) : Engine × Except Fault Record :=
  e.attempt (e.checkApproval id caller) fun r =>
  e.attempt (e.ledger.recordActions id [.timeDelayApprove]) fun ledger =>
  ({ e with ledger }.emit id r.operation (.approved caller .timeDelayApprove)).carryOut id none

def cancel (id : TxId) (caller : Identity) : Engine × Except Fault Record :=
  e.attempt (e.checkCancellation id caller) fun r =>
  e.attempt (e.ledger.recordActions id [.timeDelayCancel]) fun ledger =>
  { e with ledger }.callOff id r.operation caller .timeDelayCancel none

end Countersign.Engine
