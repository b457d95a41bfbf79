import Countersign.Engine.Command
import Countersign.Proofs.Conditions
import Countersign.Proofs.Dispatch

/-!
# What a command does

`Accepts e c e' reply` is the engine's behaviour as a set of rules, one for each command: under the
conditions of `Conditions` the command `c` is accepted with `reply` and leads from `e` to `e'`.
`step_eq_ok_iff` says that these are all the accepted commands, and `Rejects` what a rejected one leaves
behind: nothing has changed, or the signer's nonce is gone. That a record is overwritten needs a ledger
whose next number is in use (`step_cases`). Invariants follow by cases on a rule.
-/

namespace Countersign

open MetaTx (MetaStep)

theorem Ledger.put_opening {l : Ledger} {r r' : Record} :
    (l.opening r).put l.nextId r' = l.opening r' := by
  simp [put, opening]

/-- A record with more actions in its history. -/
def Record.extended (r : Record) (actions : List Action) : Record :=
  { r with history := r.history ++ actions }

namespace Engine

variable {e e' : Engine} {id : TxId} {r : Record} {message : Option Digest}

/-! ## Closing a record -/

/-- The engine with another record under a number. -/
def recording (e : Engine) (id : TxId) (r : Record) : Engine :=
  { e with ledger := e.ledger.put id r }

/-- The policy, the dispatcher and the outcome after carrying out a record. -/
def carrying (e : Engine) (r : Record) : TimeLockPolicy × Dispatcher × Outcome :=
  execute e.identity Governance.handleCall e.timelock e.dispatcher r

/-- A record as carrying it out leaves it. -/
def executed (e : Engine) (r : Record) (message : Option Digest) : Record :=
  Ledger.closed r (e.carrying r).2.2.status (e.carrying r).2.2.result message

theorem executed_status (e : Engine) (r : Record) (message : Option Digest) :
    (e.executed r message).status = .completed ∨ (e.executed r message).status = .failed :=
  execute_status ..

def carriedOut (e : Engine) (id : TxId) (r : Record) (message : Option Digest) : Engine :=
  let final := e.executed r message
  { e with
    timelock := (e.carrying r).1
    dispatcher := (e.carrying r).2.1
    ledger := e.ledger.close id final }.emit id r.operation (.executed final.status final.result)

theorem carryOut_of_pending (h : e.ledger.HasPending id r) :
    e.carryOut id message = (e.carriedOut id r message, .ok (e.executed r message)) := by
  have hs : (e.carrying r).2.2.status ≠ .pending := execute_status_ne_pending _ _ _ _ _
  have hf := h.finalize hs (e.carrying r).2.2.result message
  unfold carrying at hf
  simp only [carryOut, Ledger.pendingRecord_eq_ok_iff.mpr h, attempt_ok, hf]
  rfl

/-- The engine after an approval of a record through some actions. -/
def approved (e : Engine) (id : TxId) (r : Record) (actor : Identity) (action : Action)
    (actions : List Action) (message : Option Digest) : Engine :=
  ((e.recording id (r.extended actions)).emit id r.operation (.approved actor action)).carriedOut id
    (r.extended actions) message

/-- A record as a cancellation through some actions leaves it. -/
def calledOff (r : Record) (actions : List Action) (message : Option Digest) : Record :=
  Ledger.closed (r.extended actions) .cancelled [] message

/-- The engine after a cancellation of a record through some actions. -/
def cancelled (e : Engine) (id : TxId) (r : Record) (actor : Identity) (action : Action)
    (actions : List Action) (message : Option Digest) : Engine :=
  { e with ledger := e.ledger.close id (calledOff r actions message) }.emit id r.operation
    (.cancelled actor action)

/-! ## Opening a record -/

/-- The record of a request, just opened. -/
def newRecord (e : Engine) (handler : Selector) (r : Request) (release : UInt64) : Record :=
  Ledger.opened e.ledger.nextId r handler e.clock release .timeDelayRequest

def requested (e : Engine) (handler : Selector) (r : Request) (release : UInt64) : Engine :=
  { e with ledger := e.ledger.opening (e.newRecord handler r release) }.emit e.ledger.nextId
    r.operation (.requested r.requester release)

/-- The record of a payload that is requested and approved in one, before it is carried out. -/
def signedRecord (e : Engine) (tx : MetaTx.Signed) (release : UInt64) : Record where
  id := e.ledger.nextId
  request := tx.snapshot.request
  status := .pending
  handler := tx.terms.handler
  createdAt := e.clock
  releaseTime := release
  message := none
  result := []
  payment := tx.snapshot.payment
  history := MetaStep.requestAndApprove.pair

/-- The engine with a signer's nonce one up. -/
def spending (e : Engine) (signer : Identity) : Engine :=
  { e with verifier := e.verifier.spend signer }

def requestedSigned (e : Engine) (tx : MetaTx.Signed) (release : UInt64) : Engine :=
  let id := e.ledger.nextId
  let r := e.signedRecord tx release
  ((({ e with
    verifier := e.verifier.spend tx.terms.signer
    ledger := e.ledger.opening r }.emit id r.operation (.requested r.request.requester release)).emit
      id r.operation (.approved tx.terms.signer .signMetaRequestAndApprove)).carriedOut id r
      (some tx.digest))

/-! ## What the engines afterwards hold -/

section Afterwards

variable {actor : Identity} {action : Action} {actions : List Action} {tx : MetaTx.Signed}
  {release : UInt64}

@[simp] theorem approved_ledger : (e.approved id r actor action actions message).ledger =
    e.ledger.close id (e.executed (r.extended actions) message) :=
  Ledger.close_put

@[simp] theorem cancelled_ledger : (e.cancelled id r actor action actions message).ledger =
    e.ledger.close id (calledOff r actions message) := rfl

@[simp] theorem requestedSigned_ledger : (e.requestedSigned tx release).ledger =
    (e.ledger.opening (e.signedRecord tx release)).close e.ledger.nextId
      (e.executed (e.signedRecord tx release) (some tx.digest)) := rfl

end Afterwards

/-! ## The rules -/

/-- The signer's nonce can still go up. -/
def HasNonce (e : Engine) (signer : Identity) : Prop := (e.nonce signer).toNat + 1 < UInt64.size

/-- A command is accepted with a reply and leads from one engine to another. -/
inductive Accepts (e : Engine) : Command → Engine → Reply → Prop where
  | access {change : AccessCommand} {access : AccessRegistry} {reply : AccessReply}
      (declarable : e.requireDeclarable change = .ok ())
      (changed : e.access.step change = .ok (access, reply)) :
      Accepts e (.access change) { e with access } (.access reply)
  | registerOperation {id operation : OperationType} {name : String} {paths : List WorkflowPath}
      {catalog : Catalog}
      (registered : e.catalog.register id name paths = .ok (catalog, operation)) :
      Accepts e (.registerOperation id name paths) { e with catalog } (.operation operation)
  | setCancelWindow (operation : OperationType) (window : CancelWindow) :
      Accepts e (.setCancelWindow operation window)
        { e with timelock := e.timelock.setCancelWindow operation window } .done
  | request {handler : Selector} {r : Request} {release : UInt64}
      (may : e.MayRequest handler r release) (room : e.ledger.HasRoom) :
      Accepts e (.request handler r) (e.requested handler r release) (.opened e.ledger.nextId)
  | requestPeriod {caller : Identity} {u : Governance.PeriodUpdate} {release : UInt64}
      (may : e.MayRequest Governance.requestHandler
        (Governance.updateRequest e.identity caller u) release) (room : e.ledger.HasRoom) :
      Accepts e (.requestPeriod caller u)
        (e.requested Governance.requestHandler (Governance.updateRequest e.identity caller u)
          release) (.opened e.ledger.nextId)
  | attachPayment {id : TxId} {caller : Identity} {p : Payment} {r : Record}
      (may : e.MayAttach id caller p r) :
      Accepts e (.attachPayment id caller p) (e.recording id { r with payment := some p }) .done
  | approve {id : TxId} {caller : Identity} {r : Record} (may : e.MayApprove id caller r) :
      Accepts e (.approve id caller)
        (e.approved id r caller .timeDelayApprove [.timeDelayApprove] none)
        (.closed (e.executed (r.extended [.timeDelayApprove]) none))
  | cancel {id : TxId} {caller : Identity} {r : Record} (may : e.MayCancel id caller r) :
      Accepts e (.cancel id caller)
        (e.cancelled id r caller .timeDelayCancel [.timeDelayCancel] none)
        (.closed (calledOff r [.timeDelayCancel] none))
  | approveSigned {tx : MetaTx.Signed} {relay : MetaTx.Relay} {r : Record}
      (may : e.MayClose .approve tx relay r) (fits : e.HasNonce tx.terms.signer) :
      Accepts e (.approveSigned tx relay)
        ((e.spending tx.terms.signer).approved tx.snapshot.txId r tx.terms.signer .signMetaApprove
          MetaStep.approve.pair (some tx.digest))
        (.closed (e.executed (r.extended MetaStep.approve.pair) (some tx.digest)))
  | cancelSigned {tx : MetaTx.Signed} {relay : MetaTx.Relay} {r : Record}
      (may : e.MayClose .cancel tx relay r) (fits : e.HasNonce tx.terms.signer) :
      Accepts e (.cancelSigned tx relay)
        ((e.spending tx.terms.signer).cancelled tx.snapshot.txId r tx.terms.signer .signMetaCancel
          MetaStep.cancel.pair (some tx.digest))
        (.closed (calledOff r MetaStep.cancel.pair (some tx.digest)))
  | requestSigned {tx : MetaTx.Signed} {relay : MetaTx.Relay} {release : UInt64}
      (may : e.MayOpen tx relay release) (fits : e.HasNonce tx.terms.signer)
      (room : e.ledger.HasRoom) :
      Accepts e (.requestSigned tx relay) (e.requestedSigned tx release)
        (.closed (e.executed (e.signedRecord tx release) (some tx.digest)))
  | setClock (now : UInt64) : Accepts e (.setClock now) { e with clock := now } .done
  | advanceClock (seconds : UInt64) :
      Accepts e (.advanceClock seconds) { e with clock := e.clock + seconds } .done
  | setDispatcher (setting : DispatcherSetting) :
      Accepts e (.setDispatcher setting) { e with dispatcher := e.dispatcher.set setting } .done
  | clearEvents : Accepts e .clearEvents { e with sink := e.sink.clear } .done

/-- A rejected command leaves an engine behind. Nothing has changed in it, unless the ledger has refused
the new record: then the signer's nonce is gone, and a record under the next number is overwritten. -/
inductive Rejects (e : Engine) : Command → Engine → Prop where
  | unchanged (c : Command) : Rejects e c e
  | spent {tx : MetaTx.Signed} {relay : MetaTx.Relay} (fits : e.HasNonce tx.terms.signer)
      (exhausted : e.ledger.next.toNat + 1 = UInt64.size) :
      Rejects e (.requestSigned tx relay) (e.spending tx.terms.signer)
  | request {handler : Selector} {q : Request} (taken : e.ledger.Taken) (r : Record) :
      Rejects e (.request handler q) (e.recording e.ledger.nextId r)
  | requestPeriod {caller : Identity} {u : Governance.PeriodUpdate} (taken : e.ledger.Taken)
      (r : Record) : Rejects e (.requestPeriod caller u) (e.recording e.ledger.nextId r)
  | requestSigned {tx : MetaTx.Signed} {relay : MetaTx.Relay} (fits : e.HasNonce tx.terms.signer)
      (taken : e.ledger.Taken) (r : Record) :
      Rejects e (.requestSigned tx relay)
        ((e.spending tx.terms.signer).recording e.ledger.nextId r)

/-! ## The delay track -/

section DelayTrack

variable {handler : Selector} {q : Request} {caller : Identity} {p : Payment} {release : UInt64}

theorem request_ok (may : e.MayRequest handler q release) (room : e.ledger.HasRoom) :
    e.request handler q = (e.requested handler q release, .ok e.ledger.nextId) := by
  have hc := checkRequest_eq_ok_iff.mpr may
  simp only [request, hc, attempt_ok, room.insert]
  rfl

theorem request_of_exhausted (may : e.MayRequest handler q release)
    (exhausted : e.ledger.next.toNat + 1 = UInt64.size) :
    e.request handler q = (e, .error (.internal .idsExhausted)) := by
  have hc := checkRequest_eq_ok_iff.mpr may
  simp only [request, hc, attempt_ok, Ledger.insert_of_exhausted exhausted]
  rfl

theorem request_of_taken (may : e.MayRequest handler q release) (taken : e.ledger.Taken) :
    e.request handler q = (e.recording e.ledger.nextId (e.newRecord handler q release),
      .error (.internal (.allocatedTwice e.ledger.nextId))) := by
  have hc := checkRequest_eq_ok_iff.mpr may
  simp only [request, hc, attempt_ok, taken.insert]
  rfl

theorem request_cases (e : Engine) (handler : Selector) (q : Request) :
    (∃ release, e.MayRequest handler q release ∧ e.ledger.HasRoom) ∨
      ∃ fault e', e.request handler q = (e', .error fault) ∧
        (e' = e ∨ e.ledger.Taken ∧ ∃ r, e' = e.recording e.ledger.nextId r) := by
  rcases hc : e.checkRequest handler q with fault | release
  · exact .inr ⟨fault, e, by rw [request, hc, attempt_error], .inl rfl⟩
  have may := checkRequest_eq_ok_iff.mp hc
  rcases e.ledger.room_cases with room | exhausted | taken
  · exact .inl ⟨release, may, room⟩
  · exact .inr ⟨_, e, request_of_exhausted may exhausted, .inl rfl⟩
  · exact .inr ⟨_, _, request_of_taken may taken, .inr ⟨taken, _, rfl⟩⟩

theorem attachPayment_ok (may : e.MayAttach id caller p r) :
    e.attachPayment id caller p = (e.recording id { r with payment := some p }, .ok ()) := by
  have hc := checkPayment_eq_ok_iff.mpr ⟨r, may⟩
  rw [attachPayment, hc, attempt_ok, may.pending.attachPayment, attempt_ok]
  rfl

theorem attachPayment_cases (e : Engine) (id : TxId) (caller : Identity) (p : Payment) :
    (∃ r, e.MayAttach id caller p r) ∨
      ∃ fault, e.attachPayment id caller p = (e, .error fault) := by
  rcases hc : e.checkPayment id caller p with fault | u
  · exact .inr ⟨fault, by rw [attachPayment, hc, attempt_error]⟩
  · exact .inl (checkPayment_eq_ok_iff.mp hc)

/-- Approving is recording the actions, telling the sink and carrying out. -/
theorem carryOut_extended (hp : e.ledger.HasPending id r) (actor : Identity) (action : Action)
    (actions : List Action) :
    ((e.recording id (r.extended actions)).emit id r.operation (.approved actor action)).carryOut id
        message =
      (e.approved id r actor action actions message,
        .ok (e.executed (r.extended actions) message)) := by
  have hput : (e.ledger.put id (r.extended actions)).HasPending id (r.extended actions) :=
    Ledger.HasPending.put hp.pending
  exact carryOut_of_pending hput

theorem callOff_extended (hp : e.ledger.HasPending id r) (actor : Identity) (action : Action)
    (actions : List Action) :
    (e.recording id (r.extended actions)).callOff id r.operation actor action message =
      (e.cancelled id r actor action actions message, .ok (calledOff r actions message)) := by
  have hput : (e.ledger.put id (r.extended actions)).HasPending id (r.extended actions) :=
    Ledger.HasPending.put hp.pending
  have hf := hput.finalize (show Status.cancelled ≠ .pending by decide) [] message
  rw [Ledger.close_put] at hf
  rw [callOff]
  unfold recording
  rw [hf, attempt_ok]
  rfl

theorem approve_ok (may : e.MayApprove id caller r) :
    e.approve id caller =
      (e.approved id r caller .timeDelayApprove [.timeDelayApprove] none,
        .ok (e.executed (r.extended [.timeDelayApprove]) none)) := by
  have hc := checkApproval_eq_ok_iff.mpr may
  rw [approve, hc, attempt_ok, may.pending.recordActions, attempt_ok]
  exact carryOut_extended may.pending ..

theorem approve_cases (e : Engine) (id : TxId) (caller : Identity) :
    (∃ r, e.MayApprove id caller r) ∨ ∃ fault, e.approve id caller = (e, .error fault) := by
  rcases hc : e.checkApproval id caller with fault | r
  · exact .inr ⟨fault, by rw [approve, hc, attempt_error]⟩
  · exact .inl ⟨r, checkApproval_eq_ok_iff.mp hc⟩

theorem cancel_ok (may : e.MayCancel id caller r) :
    e.cancel id caller =
      (e.cancelled id r caller .timeDelayCancel [.timeDelayCancel] none,
        .ok (calledOff r [.timeDelayCancel] none)) := by
  have hc := checkCancellation_eq_ok_iff.mpr may
  rw [cancel, hc, attempt_ok, may.pending.recordActions, attempt_ok]
  exact callOff_extended may.pending ..

theorem cancel_cases (e : Engine) (id : TxId) (caller : Identity) :
    (∃ r, e.MayCancel id caller r) ∨ ∃ fault, e.cancel id caller = (e, .error fault) := by
  rcases hc : e.checkCancellation id caller with fault | r
  · exact .inr ⟨fault, by rw [cancel, hc, attempt_error]⟩
  · exact .inl ⟨r, checkCancellation_eq_ok_iff.mp hc⟩

end DelayTrack

/-! ## The meta-transaction track -/

section MetaTrack

variable {step : MetaStep} {tx : MetaTx.Signed} {relay : MetaTx.Relay} {release : UInt64}

/-- A payload with the signer's next nonce uses up that nonce, if one more is left. -/
theorem consume_cases (h : e.SignedFor step tx relay) :
    (e.HasNonce tx.terms.signer ∧
      e.verifier.consume tx =
        .ok (e.verifier.spend tx.terms.signer, e.nonce tx.terms.signer + 1)) ∨
    ∃ fault, e.verifier.consume tx = .error fault := by
  rcases hv : e.verifier.consume tx with fault | ⟨v, next⟩
  · exact .inr ⟨fault, rfl⟩
  · obtain ⟨hn, rfl, rfl⟩ := (MetaTx.Verifier.consume_eq_ok_iff h.nonce).mp hv
    exact .inl ⟨hn, rfl⟩

theorem consume_ok (h : e.SignedFor step tx relay) (fits : e.HasNonce tx.terms.signer) :
    e.verifier.consume tx =
      .ok (e.verifier.spend tx.terms.signer, e.nonce tx.terms.signer + 1) :=
  (MetaTx.Verifier.consume_eq_ok_iff h.nonce).mpr ⟨fits, rfl, rfl⟩

/-- A step that closes a record may go ahead, fails its checks, or finds the signer's nonces
exhausted. -/
theorem closing_cases (e : Engine) (step : MetaStep) (tx : MetaTx.Signed) (relay : MetaTx.Relay) :
    (∃ r, e.MayClose step tx relay r ∧ e.HasNonce tx.terms.signer) ∨
      ∃ fault, e.checkClosing step tx relay = .error fault ∨
        ∃ r, e.checkClosing step tx relay = .ok r ∧ e.verifier.consume tx = .error fault := by
  rcases hc : e.checkClosing step tx relay with fault | r
  · exact .inr ⟨fault, .inl rfl⟩
  · have may := checkClosing_eq_ok_iff.mp hc
    rcases consume_cases may.toSignedFor with ⟨fits, _⟩ | ⟨fault, hv⟩
    · exact .inl ⟨r, may, fits⟩
    · exact .inr ⟨fault, .inr ⟨r, rfl, hv⟩⟩

theorem approveSigned_ok (may : e.MayClose .approve tx relay r)
    (fits : e.HasNonce tx.terms.signer) :
    e.approveSigned tx relay =
      ((e.spending tx.terms.signer).approved tx.snapshot.txId r tx.terms.signer .signMetaApprove
        MetaStep.approve.pair (some tx.digest),
        .ok (e.executed (r.extended MetaStep.approve.pair) (some tx.digest))) := by
  have hc := checkClosing_eq_ok_iff.mpr may
  have hp : (e.spending tx.terms.signer).ledger.HasPending tx.snapshot.txId r := may.pending
  simp only [approveSigned, hc, attempt_ok, consume_ok may.toSignedFor fits,
    may.pending.recordActions]
  exact carryOut_extended hp ..

theorem approveSigned_cases (e : Engine) (tx : MetaTx.Signed) (relay : MetaTx.Relay) :
    (∃ r, e.MayClose .approve tx relay r ∧ e.HasNonce tx.terms.signer) ∨
      ∃ fault, e.approveSigned tx relay = (e, .error fault) := by
  rcases closing_cases e .approve tx relay with h | ⟨fault, hc | ⟨r, hc, hv⟩⟩
  · exact .inl h
  · exact .inr ⟨fault, by rw [approveSigned, hc, attempt_error]⟩
  · exact .inr ⟨fault, by rw [approveSigned, hc, attempt_ok, hv, attempt_error]⟩

theorem cancelSigned_ok (may : e.MayClose .cancel tx relay r) (fits : e.HasNonce tx.terms.signer) :
    e.cancelSigned tx relay =
      ((e.spending tx.terms.signer).cancelled tx.snapshot.txId r tx.terms.signer .signMetaCancel
        MetaStep.cancel.pair (some tx.digest),
        .ok (calledOff r MetaStep.cancel.pair (some tx.digest))) := by
  have hc := checkClosing_eq_ok_iff.mpr may
  have hp : (e.spending tx.terms.signer).ledger.HasPending tx.snapshot.txId r := may.pending
  simp only [cancelSigned, hc, attempt_ok, consume_ok may.toSignedFor fits,
    may.pending.recordActions]
  exact callOff_extended hp ..

theorem cancelSigned_cases (e : Engine) (tx : MetaTx.Signed) (relay : MetaTx.Relay) :
    (∃ r, e.MayClose .cancel tx relay r ∧ e.HasNonce tx.terms.signer) ∨
      ∃ fault, e.cancelSigned tx relay = (e, .error fault) := by
  rcases closing_cases e .cancel tx relay with h | ⟨fault, hc | ⟨r, hc, hv⟩⟩
  · exact .inl h
  · exact .inr ⟨fault, by rw [cancelSigned, hc, attempt_error]⟩
  · exact .inr ⟨fault, by rw [cancelSigned, hc, attempt_ok, hv, attempt_error]⟩

/-- A payment of a snapshot goes to the record that has just been opened. -/
theorem attachSnapshotPayment_opening {l : Ledger} {r : Record} {s : MetaTx.Snapshot}
    (hs : r.status = .pending) (hn : r.payment = none) :
    attachSnapshotPayment (l.opening r) l.nextId s =
      .ok (l.opening { r with payment := s.payment }) := by
  have hp : (l.opening r).HasPending l.nextId r := ⟨SortedMap.get?_insert_self, hs⟩
  rw [attachSnapshotPayment]
  cases h : s.payment with
  | none => simp only [← hn]
  | some p => exact (hp.attachPayment p).trans (by rw [Ledger.put_opening])

theorem requestSigned_ok (may : e.MayOpen tx relay release) (fits : e.HasNonce tx.terms.signer)
    (room : e.ledger.HasRoom) :
    e.requestSigned tx relay =
      (e.requestedSigned tx release,
        .ok (e.executed (e.signedRecord tx release) (some tx.digest))) := by
  have hc := checkOpening_eq_ok_iff.mpr may
  have hp : (e.ledger.opening (e.signedRecord tx release)).HasPending e.ledger.nextId
      (e.signedRecord tx release) := ⟨SortedMap.get?_insert_self, rfl⟩
  -- Opening, payment and second action leave one new record behind, stored three times over.
  have ha := attachSnapshotPayment_opening (l := e.ledger) (s := tx.snapshot)
    (r := Ledger.opened e.ledger.nextId tx.snapshot.request tx.terms.handler e.clock release
      MetaStep.requestAndApprove.signing) rfl rfl
  have hr : (e.ledger.opening { Ledger.opened e.ledger.nextId tx.snapshot.request tx.terms.handler
        e.clock release MetaStep.requestAndApprove.signing with
        payment := tx.snapshot.payment }).recordActions e.ledger.nextId
      [MetaStep.requestAndApprove.executing] =
      .ok (e.ledger.opening (e.signedRecord tx release)) := by
    rw [Ledger.HasPending.recordActions ⟨SortedMap.get?_insert_self, rfl⟩, Ledger.put_opening]
    rfl
  simp only [requestSigned, hc, attempt_ok, consume_ok may.toSignedFor fits, room.insert, ha, hr]
  exact carryOut_of_pending hp

/-- Without a number the nonce is used up all the same. -/
theorem requestSigned_of_exhausted (may : e.MayOpen tx relay release)
    (fits : e.HasNonce tx.terms.signer) (exhausted : e.ledger.next.toNat + 1 = UInt64.size) :
    e.requestSigned tx relay =
      (e.spending tx.terms.signer, .error (.internal .idsExhausted)) := by
  have hc := checkOpening_eq_ok_iff.mpr may
  simp only [requestSigned, hc, attempt_ok, consume_ok may.toSignedFor fits,
    Ledger.insert_of_exhausted exhausted]
  rfl

theorem requestSigned_of_taken (may : e.MayOpen tx relay release)
    (fits : e.HasNonce tx.terms.signer) (taken : e.ledger.Taken) :
    e.requestSigned tx relay =
      ((e.spending tx.terms.signer).recording e.ledger.nextId
        (Ledger.opened e.ledger.nextId tx.snapshot.request tx.terms.handler e.clock release
          MetaStep.requestAndApprove.signing),
        .error (.internal (.allocatedTwice e.ledger.nextId))) := by
  have hc := checkOpening_eq_ok_iff.mpr may
  simp only [requestSigned, hc, attempt_ok, consume_ok may.toSignedFor fits, taken.insert]
  rfl

theorem requestSigned_cases (e : Engine) (tx : MetaTx.Signed) (relay : MetaTx.Relay) :
    (∃ release, e.MayOpen tx relay release ∧ e.HasNonce tx.terms.signer ∧ e.ledger.HasRoom) ∨
      ∃ fault e', e.requestSigned tx relay = (e', .error fault) ∧
        e.Rejects (.requestSigned tx relay) e' := by
  rcases hc : e.checkOpening tx relay with fault | release
  · exact .inr ⟨fault, e, by rw [requestSigned, hc, attempt_error], .unchanged _⟩
  have may := checkOpening_eq_ok_iff.mp hc
  rcases consume_cases may.toSignedFor with ⟨fits, -⟩ | ⟨fault, hv⟩
  · -- The checks do not look at the number, so the nonce is gone before the ledger refuses.
    rcases e.ledger.room_cases with room | exhausted | taken
    · exact .inl ⟨release, may, fits, room⟩
    · exact .inr ⟨_, _, requestSigned_of_exhausted may fits exhausted, .spent fits exhausted⟩
    · exact .inr ⟨_, _, requestSigned_of_taken may fits taken, .requestSigned fits taken _⟩
  · refine .inr ⟨fault, e, ?_, .unchanged _⟩
    rw [requestSigned, hc, attempt_ok, hv, attempt_error]

end MetaTrack

/-! ## Any command -/

variable {c : Command} {reply : Reply}

/-- Every rule is carried out as it says. -/
theorem Accepts.step_eq (h : e.Accepts c e' reply) : e.step c = (e', .ok reply) := by
  cases h with
  | access declarable changed =>
    simp [step, changeAccess, declarable, changed, replying, Except.map]
  | registerOperation registered =>
    simp [step, Engine.registerOperation, registered, replying, Except.map]
  | request may room => rw [step, request_ok may room]; rfl
  | requestPeriod may room => rw [step, Engine.requestPeriod, request_ok may room]; rfl
  | attachPayment may => rw [step, attachPayment_ok may]; rfl
  | approve may => rw [step, approve_ok may]; rfl
  | cancel may => rw [step, cancel_ok may]; rfl
  | approveSigned may fits => rw [step, approveSigned_ok may fits]; rfl
  | cancelSigned may fits => rw [step, cancelSigned_ok may fits]; rfl
  | requestSigned may fits room => rw [step, requestSigned_ok may fits room]; rfl
  | _ => rfl

/-- A command is accepted by its rule, or it is rejected. -/
theorem accepts_or_rejects (e : Engine) (c : Command) :
    (∃ e' reply, e.Accepts c e' reply) ∨
      ∃ fault e', e.step c = (e', .error fault) ∧ e.Rejects c e' := by
  cases c with
  | access change =>
    rcases hd : e.requireDeclarable change with fault | u
    · exact .inr ⟨fault, e, by simp [step, changeAccess, hd, replying, Except.map], .unchanged _⟩
    rcases ha : e.access.step change with fault | ⟨access, reply⟩
    · refine .inr ⟨fault, e, ?_, .unchanged _⟩
      simp [step, changeAccess, hd, ha, replying, Except.map]
    · exact .inl ⟨_, _, .access hd ha⟩
  | registerOperation id name paths =>
    rcases hr : e.catalog.register id name paths with fault | ⟨catalog, operation⟩
    · refine .inr ⟨fault, e, ?_, .unchanged _⟩
      simp [step, registerOperation, hr, replying, Except.map]
    · exact .inl ⟨_, _, .registerOperation hr⟩
  | request handler q =>
    rcases request_cases e handler q with ⟨_, may, room⟩ | ⟨fault, e', h, rfl | ⟨taken, r, rfl⟩⟩
    · exact .inl ⟨_, _, .request may room⟩
    · exact .inr ⟨fault, _, by rw [step, h]; rfl, .unchanged _⟩
    · exact .inr ⟨fault, _, by rw [step, h]; rfl, .request taken r⟩
  | requestPeriod caller u =>
    rcases request_cases e Governance.requestHandler (Governance.updateRequest e.identity caller u)
      with ⟨_, may, room⟩ | ⟨fault, e', h, rfl | ⟨taken, r, rfl⟩⟩
    · exact .inl ⟨_, _, .requestPeriod may room⟩
    · exact .inr ⟨fault, _, by rw [step, requestPeriod, h]; rfl, .unchanged _⟩
    · exact .inr ⟨fault, _, by rw [step, requestPeriod, h]; rfl, .requestPeriod taken r⟩
  | attachPayment id caller p =>
    rcases attachPayment_cases e id caller p with ⟨_, may⟩ | ⟨fault, h⟩
    · exact .inl ⟨_, _, .attachPayment may⟩
    · exact .inr ⟨fault, e, by rw [step, h]; rfl, .unchanged _⟩
  | approve id caller =>
    rcases approve_cases e id caller with ⟨_, may⟩ | ⟨fault, h⟩
    · exact .inl ⟨_, _, .approve may⟩
    · exact .inr ⟨fault, e, by rw [step, h]; rfl, .unchanged _⟩
  | cancel id caller =>
    rcases cancel_cases e id caller with ⟨_, may⟩ | ⟨fault, h⟩
    · exact .inl ⟨_, _, .cancel may⟩
    · exact .inr ⟨fault, e, by rw [step, h]; rfl, .unchanged _⟩
  | approveSigned tx relay =>
    rcases approveSigned_cases e tx relay with ⟨_, may, fits⟩ | ⟨fault, h⟩
    · exact .inl ⟨_, _, .approveSigned may fits⟩
    · exact .inr ⟨fault, e, by rw [step, h]; rfl, .unchanged _⟩
  | cancelSigned tx relay =>
    rcases cancelSigned_cases e tx relay with ⟨_, may, fits⟩ | ⟨fault, h⟩
    · exact .inl ⟨_, _, .cancelSigned may fits⟩
    · exact .inr ⟨fault, e, by rw [step, h]; rfl, .unchanged _⟩
  | requestSigned tx relay =>
    rcases requestSigned_cases e tx relay with ⟨_, may, fits, room⟩ | ⟨fault, e', h, rejects⟩
    · exact .inl ⟨_, _, .requestSigned may fits room⟩
    · exact .inr ⟨fault, e', by rw [step, h]; rfl, rejects⟩
  | setCancelWindow operation window => exact .inl ⟨_, _, .setCancelWindow operation window⟩
  | setClock now => exact .inl ⟨_, _, .setClock now⟩
  | advanceClock seconds => exact .inl ⟨_, _, .advanceClock seconds⟩
  | setDispatcher setting => exact .inl ⟨_, _, .setDispatcher setting⟩
  | clearEvents => exact .inl ⟨_, _, .clearEvents⟩

theorem step_eq_of_ok (h : (e.step c).2 = .ok reply) : e.step c = ((e.step c).1, .ok reply) := by
  rw [← h]

/-- The rules are all there is to accepted commands. -/
theorem step_eq_ok_iff : e.step c = (e', .ok reply) ↔ e.Accepts c e' reply := by
  refine ⟨fun h => ?_, Accepts.step_eq⟩
  rcases accepts_or_rejects e c with ⟨_, _, ha⟩ | ⟨fault, _, hs, -⟩
  · have := ha.step_eq.symm.trans h
    simp only [Prod.mk.injEq, Except.ok.injEq] at this
    obtain ⟨rfl, rfl⟩ := this
    exact ha
  · rw [hs] at h
    cases h

/-! ## Rejected commands -/

/-- Whatever the ledger is like, a rejected command leaves everything but the verifier and the ledger. -/
theorem Rejects.eq_update (h : e.Rejects c e') : ∃ verifier ledger, e' = { e with verifier, ledger } := by
  cases h <;> exact ⟨_, _, rfl⟩

/-- In a numbered ledger no record is overwritten: a rejected command changes nothing, except that a
request and approval in one that finds all numbers used up has used up the nonce. -/
theorem step_cases (hn : e.ledger.Numbered) (c : Command) :
    (∃ e' reply, e.Accepts c e' reply) ∨
      ∃ fault, e.step c = (e, .error fault) ∨
        e.ledger.next.toNat + 1 = UInt64.size ∧ ∃ tx relay, c = .requestSigned tx relay ∧
          e.HasNonce tx.terms.signer ∧ e.step c = (e.spending tx.terms.signer, .error fault) := by
  rcases accepts_or_rejects e c with accepts | ⟨fault, e', hs, rejects⟩
  · exact .inl accepts
  cases rejects with
  | unchanged => exact .inr ⟨fault, .inl hs⟩
  | spent fits exhausted => exact .inr ⟨fault, .inr ⟨exhausted, _, _, rfl, fits, hs⟩⟩
  | request taken | requestPeriod taken | requestSigned _ taken => exact absurd taken hn.not_taken

/-- There a command is accepted by its rule, or it is rejected and leaves everything but the verifier. -/
theorem accepts_or_keeps (hn : e.ledger.Numbered) (c : Command) :
    (∃ e' reply, e.Accepts c e' reply) ∨
      ∃ fault verifier, e.step c = ({ e with verifier }, .error fault) := by
  rcases step_cases hn c with accepts | ⟨fault, h | ⟨-, tx, relay, -, -, h⟩⟩
  · exact .inl accepts
  · exact .inr ⟨fault, e.verifier, h⟩
  · exact .inr ⟨fault, e.verifier.spend tx.terms.signer, h⟩

end Engine

end Countersign
