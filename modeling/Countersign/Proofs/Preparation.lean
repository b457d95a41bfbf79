import Countersign.Proofs.Atomicity
import Countersign.Proofs.Frame
import Countersign.Proofs.SignedContent

/-!
# Prepared payloads stay good

What the engine prepares is what it later checks. A draft made with the engine's own terms and signed
is accepted in every later state in which the things that can have changed are still in order: the
nonce, the time, the gas price and the permissions (`Deliverable`), and the pending record with its
payment, or the period and the numbers for a new one (`prepared_accepted`). Everything else that is
checked is settled by the preparation, since registrations and what was asked for never change.
-/

namespace Countersign

open MetaTx (MetaStep Snapshot)

namespace Engine

variable {earlier e e₀ : Engine} {step : MetaStep} {tx : MetaTx.Signed} {relay : MetaTx.Relay}
  {id : TxId} {r : Record} {q : Request} {draft : MetaTx.Draft} {handler : Selector}
  {action : Action} {deadline : UInt64} {maxGasPrice : Amount} {signer : Identity}
  {signature : Bytes}

/-- What has to be in order for a payload that was prepared earlier, whatever its step. -/
structure Deliverable (earlier e : Engine) (step : MetaStep) (tx : MetaTx.Signed)
    (relay : MetaTx.Relay) : Prop where
  unspent : e.nonce tx.terms.signer = earlier.nonce tx.terms.signer
  fits : e.HasNonce tx.terms.signer
  deadline : e.clock ≤ tx.terms.deadline
  gasPrice : tx.terms.maxGasPrice = 0 ∨ relay.gasPrice ≤ tx.terms.maxGasPrice
  signer : e.access.allows tx.terms.signer tx.terms.handler step.signing = true
  relayer : e.access.allows relay.relayer tx.terms.handler step.executing = true

/-- A draft for an engine's own terms, once it is signed, has all that a step needs. -/
theorem Deliverable.signedFor {s : Snapshot} (grows : Grows earlier e)
    (h : Deliverable earlier e step
      ((MetaTx.Draft.of s (earlier.terms handler action deadline maxGasPrice signer)).withSignature
        signature) relay)
    (signs : action = step.signing)
    (verified : verifyDigest signer
      (MetaTx.digest s (earlier.terms handler action deadline maxGasPrice signer)) signature =
        .ok ()) :
    e.SignedFor step
      ((MetaTx.Draft.of s (earlier.terms handler action deadline maxGasPrice signer)).withSignature
        signature) relay where
  action := signs
  authentic :=
    { chain := grows.chain.symm
      contract := grows.contract.symm
      digest := rfl
      callData := rfl
      signature := verified
      deadline := h.deadline
      gasPrice := h.gasPrice }
  nonce := h.unspent.symm
  signer := h.signer
  relayer := h.relayer

/-! ## Payloads for pending records -/

/-- A prepared payload may still close its record, if that is pending with the same payment. -/
theorem mayClose_of_prepared (numbered : earlier.ledger.Numbered) (later : Reaches earlier e)
    (prepared : earlier.prepareClosing id
      (earlier.terms handler action deadline maxGasPrice signer) = .ok draft)
    (closing : MetaStep.closing? action = some step)
    (verified : verifyDigest signer draft.digest signature = .ok ())
    (h : Deliverable earlier e step (draft.withSignature signature) relay)
    (pending : e.ledger.HasPending id r) (payment : r.payment = draft.snapshot.payment)
    (onPath : e.catalog.permits r.operation (r.history ++ step.pair) = true) :
    e.MayClose step (draft.withSignature signature) relay r ∧ draft.snapshot.txId = id := by
  obtain ⟨before, step', stored, closing', served, rfl⟩ := prepareClosing_eq_ok_iff.mp prepared
  have hstep : step' = step := Option.some.inj (closing'.symm.trans closing)
  subst hstep
  obtain ⟨cs, rfl⟩ := reaches_iff.mp later
  have grows := grows_run earlier cs
  -- The record may have gone through other commands, but not in what the snapshot shows of it.
  obtain ⟨now, hnow, same⟩ := later_run numbered cs stored.stored
  have hr : now = r := Option.some.inj (hnow.symm.trans pending.stored)
  subst hr
  have hid : before.id = id := (numbered id before stored.stored).1
  have shows : Snapshot.ofRecord now = Snapshot.ofRecord before := by
    rw [Snapshot.ofRecord, Snapshot.ofRecord, same.id, same.request, payment]
    rfl
  have hop : now.operation = before.operation := congrArg Request.operation same.request
  refine ⟨{ h.signedFor grows (MetaStep.eq_signing_of_closing? closing) verified with
    pending := ?_, snapshot := shows, served := ?_, onPath := onPath }, hid⟩
  · show (earlier.run cs).ledger.HasPending before.id now
    rw [hid]
    exact pending
  · rw [hop]
    exact grows.serves served

/-- A step that may close a record, with a nonce left, is answered with that record. -/
theorem submit_of_mayClose (may : e.MayClose step tx relay r)
    (closing : MetaStep.closing? action = some step) (fits : e.HasNonce tx.terms.signer) :
    ∃ final, (e.step (step.submit tx relay)).2 = .ok (.closed final) ∧
      final.id = tx.snapshot.txId := by
  cases step with
  | approve =>
    exact ⟨_, congrArg Prod.snd (Accepts.approveSigned may fits).step_eq,
      congrArg Snapshot.txId may.snapshot⟩
  | cancel =>
    exact ⟨_, congrArg Prod.snd (Accepts.cancelSigned may fits).step_eq,
      congrArg Snapshot.txId may.snapshot⟩
  | requestAndApprove =>
    have := MetaStep.eq_signing_of_closing? closing
    subst this
    cases closing

/-! ## Payloads for new records -/

/-- A prepared request may still be opened and approved, if there is a release time for it. -/
theorem mayOpen_of_prepared (later : Reaches earlier e)
    (prepared : earlier.prepareOpening q
      (earlier.terms handler action deadline maxGasPrice signer) = .ok draft)
    (own : q.requester = signer)
    (verified : verifyDigest signer draft.digest signature = .ok ())
    (h : Deliverable earlier e .requestAndApprove (draft.withSignature signature) relay)
    (onPath : e.catalog.permits q.operation MetaStep.requestAndApprove.pair = true)
    (release : e.clock.toNat + (e.timelock.periodFor q.operation).toNat < UInt64.size) :
    ∃ release, e.MayOpen (draft.withSignature signature) relay release := by
  obtain ⟨signs, registered, served, execution, rfl⟩ := prepareOpening_eq_ok_iff.mp prepared
  obtain ⟨cs, rfl⟩ := reaches_iff.mp later
  have grows := grows_run earlier cs
  refine ⟨UInt64.ofNat _, { h.signedFor grows signs verified with
    unallocated := rfl
    requester := own
    registered := grows.contains registered
    served := grows.serves served
    onPath := onPath
    execution := ?_
    payment := ?_
    release := UInt64.toNat_ofNat_of_lt' release }⟩
  · rw [grows.identity]
    exact execution
  · intro p hp
    cases hp

/-! ## Reachable engines -/

/-- In every reached engine, let a payload be prepared with the engine's own terms for a signer, and
be signed. Then in every later state the entry point of its step accepts it, provided that it is
deliverable there and the operation type permits the step, and that

* the record to be closed is still pending and has the same payment, or
* for a new record, one period from now is a time, and a number is left. -/
theorem prepared_accepted {config : EngineConfig} {clock : UInt64} {sink : EventSink}
    {dispatcher : Dispatcher} (created : create config clock sink dispatcher = .ok e₀)
    (reached : Reaches e₀ earlier) (later : Reaches earlier e)
    (verified : verifyDigest signer draft.digest signature = .ok ()) :
    let terms := earlier.terms handler action deadline maxGasPrice signer
    let tx := draft.withSignature signature
    (∀ id, earlier.prepareClosing id terms = .ok draft →
      ∃ step, MetaStep.closing? action = some step ∧
        ∀ relay r, Deliverable earlier e step tx relay → e.ledger.HasPending id r →
          r.payment = draft.snapshot.payment →
          e.catalog.permits r.operation (r.history ++ step.pair) = true →
          ∃ final, (e.step (step.submit tx relay)).2 = .ok (.closed final) ∧ final.id = id) ∧
    (∀ q, q.requester = signer → earlier.prepareOpening q terms = .ok draft →
      ∀ relay, Deliverable earlier e .requestAndApprove tx relay →
        e.catalog.permits q.operation MetaStep.requestAndApprove.pair = true →
        e.clock.toNat + (e.timelock.periodFor q.operation).toNat < UInt64.size →
        e.ledger.next.toNat + 1 < UInt64.size →
        ∃ final, (e.step (MetaStep.requestAndApprove.submit tx relay)).2 = .ok (.closed final) ∧
          final.id = e.ledger.nextId) := by
  obtain ⟨before, rfl⟩ := reaches_iff.mp reached
  have hnew := isNew_of_create created
  refine ⟨?_, ?_⟩
  · intro id prepared
    obtain ⟨_, step, -, closing, -⟩ := prepareClosing_eq_ok_iff.mp prepared
    refine ⟨step, closing, fun relay r deliverable pending payment onPath => ?_⟩
    obtain ⟨may, hid⟩ := mayClose_of_prepared (hnew.numbered before) later prepared closing
      verified deliverable pending payment onPath
    obtain ⟨final, answered, hfinal⟩ := submit_of_mayClose may closing deliverable.fits
    exact ⟨final, answered, hfinal.trans hid⟩
  · intro q own prepared relay deliverable onPath release room
    obtain ⟨release, may⟩ :=
      mayOpen_of_prepared later prepared own verified deliverable onPath release
    obtain ⟨after, rfl⟩ := reaches_iff.mp later
    rw [← run_append] at may room deliverable ⊢
    have hroom := (hnew.numbered (before ++ after)).hasRoom room
    exact ⟨_, congrArg Prod.snd (Accepts.requestSigned may deliverable.fits hroom).step_eq, rfl⟩

end Engine

namespace Sample

/-- The draft of the payload that requests and approves. -/
def requestDraft : MetaTx.Draft := .of (.ofRequest request) requestPayload.terms

/-- Before a record is opened, the engine prepares a draft, with its own terms. -/
theorem prepares_request : holds declarations (fun e =>
    match e.prepareOpening request requestDraft.terms with
    | .ok _ => decide (e.nonce owner = 0 ∧
        e.terms function.selector .signMetaRequestAndApprove 1000 0 owner = requestDraft.terms)
    | .error _ => false) = true := by
  decide +kernel

/-- With a record opened in between, the request can be delivered, and the engine's terms are those
of the other draft. -/
theorem opening_delivers : holds opening (fun e =>
    decide (e.nonce owner = 0 ∧ e.clock = 100 ∧
      e.access.allows owner function.selector .signMetaRequestAndApprove = true ∧
      e.access.allows owner function.selector .executeMetaRequestAndApprove = true ∧
      e.catalog.permits pay MetaStep.requestAndApprove.pair = true ∧
      e.timelock.periodFor pay = 60 ∧ e.ledger.next = 2 ∧
      e.terms function.selector .signMetaApprove 1000 0 owner = draft.terms)) = true := by
  decide +kernel

/-- With the payment changed and changed back in between, the approval can be delivered. -/
theorem delivers_approval : holds restored (fun e =>
    match e.ledger.pendingRecord txId with
    | .ok r => decide (r.payment = draft.snapshot.payment ∧
        e.catalog.permits r.operation (r.history ++ MetaStep.approve.pair) = true ∧
        e.nonce owner = 0 ∧ e.clock = 100 ∧
        e.access.allows owner function.selector .signMetaApprove = true ∧
        e.access.allows owner function.selector .executeMetaApprove = true)
    | .error _ => false) = true := by
  decide +kernel

section Delivered

open Engine

variable {e : Engine} (created : create config 100 (.memory []) .empty = .ok e)

include created

theorem eq_of_created {e' : Engine} (h : create config 100 (.memory []) .empty = .ok e') : e' = e :=
  Except.ok.inj (h.symm.trans created)

theorem request_delivers :
    (e.run declarations).prepareOpening request
        ((e.run declarations).terms function.selector .signMetaRequestAndApprove 1000 0 owner) =
      .ok requestDraft ∧
    Deliverable (e.run declarations) (e.run opening) .requestAndApprove requestPayload relay ∧
    (e.run opening).catalog.permits pay MetaStep.requestAndApprove.pair = true ∧
    (e.run opening).clock = 100 ∧ (e.run opening).timelock.periodFor pay = 60 ∧
    (e.run opening).ledger.next = 2 := by
  obtain ⟨_, h, prepares⟩ := exists_of_holds prepares_request
  obtain ⟨_, h', delivers⟩ := exists_of_holds opening_delivers
  cases eq_of_created created h
  cases eq_of_created created h'
  split at prepares
  · next draft prepared =>
    obtain ⟨unspent, terms⟩ := of_decide_eq_true prepares
    obtain ⟨nonce, clock, signer, relayer, onPath, period, next, -⟩ := of_decide_eq_true delivers
    have hdraft : draft = requestDraft := (prepareOpening_eq_ok_iff.mp prepared).2.2.2.2
    subst hdraft
    have fits : (e.run opening).HasNonce owner := by
      rw [HasNonce, nonce]
      decide
    exact ⟨by rw [terms]; exact prepared, ⟨nonce.trans unspent.symm, fits, by rw [clock]; decide,
      .inl rfl, signer, relayer⟩, onPath, clock, period, next⟩
  · cases prepares

theorem approval_delivers :
    (e.run opening).prepareClosing txId
        ((e.run opening).terms function.selector .signMetaApprove 1000 0 owner) = .ok draft ∧
    Deliverable (e.run opening) (e.run restored) .approve payload relay ∧
    ∃ r, (e.run restored).ledger.HasPending txId r ∧ r.payment = draft.snapshot.payment ∧
      (e.run restored).catalog.permits r.operation (r.history ++ MetaStep.approve.pair) = true := by
  obtain ⟨_, h, prepares⟩ := exists_of_holds opening_delivers
  obtain ⟨_, h', delivers⟩ := exists_of_holds delivers_approval
  cases eq_of_created created h
  cases eq_of_created created h'
  obtain ⟨unspent, -, -, -, -, -, -, terms⟩ := of_decide_eq_true prepares
  obtain ⟨_, _, prepared, -⟩ := exists_sample_prepared created
  split at delivers
  · next r stored =>
    obtain ⟨payment, onPath, nonce, clock, signer, relayer⟩ := of_decide_eq_true delivers
    have fits : (e.run restored).HasNonce owner := by
      rw [HasNonce, nonce]
      decide
    exact ⟨by rw [terms]; exact prepared, ⟨nonce.trans unspent.symm, fits, by rw [clock]; decide,
      .inl rfl, signer, relayer⟩, r, Ledger.pendingRecord_eq_ok_iff.mp stored, payment, onPath⟩
  · cases delivers

end Delivered

/-- Both payloads are signed by the owner. -/
theorem payloads_verified : verifyDigest owner draft.digest payload.signature = .ok () ∧
    verifyDigest owner requestDraft.digest requestPayload.signature = .ok () := by
  obtain ⟨e, reply, -, accepted, -⟩ := exists_completed
  obtain ⟨e', -, ⟨⟨release, may⟩, -, -⟩, -⟩ := exists_exhausted
  exact ⟨(Engine.submitted_of_ok accepted).signed.authentic.signature, may.authentic.signature⟩

end Sample

/-- The sample's approval is accepted although the payment was changed in between, and its request
although a record has been opened since. -/
theorem Engine.sample_delivered : ∃ e, create Sample.config 100 (.memory []) .empty = .ok e ∧
    (∃ final, ((e.run Sample.restored).step
        (MetaStep.approve.submit Sample.payload Sample.relay)).2 = .ok (.closed final) ∧
      final.id = Sample.txId) ∧
    ∃ final, ((e.run Sample.opening).step
        (MetaStep.requestAndApprove.submit Sample.requestPayload Sample.relay)).2 =
          .ok (.closed final) ∧ final.id = ⟨2⟩ := by
  obtain ⟨e, _, created, -⟩ := Sample.exists_completed
  obtain ⟨verified, verified'⟩ := Sample.payloads_verified
  obtain ⟨prepared, deliverable, r, pending, payment, onPath⟩ := Sample.approval_delivers created
  obtain ⟨prepared', deliverable', onPath', clock, period, next⟩ := Sample.request_delivers created
  have later : Reaches (e.run Sample.opening) (e.run Sample.restored) := by
    rw [Sample.restored, Sample.changed, List.append_assoc, run_append]
    exact (Reaches.refl _).run _
  have later' : Reaches (e.run Sample.declarations) (e.run Sample.opening) := by
    rw [← List.take_append_drop 3 Sample.opening, run_append]
    exact (Reaches.refl _).run _
  refine ⟨e, created, ?_, ?_⟩
  · obtain ⟨closes, -⟩ := prepared_accepted created ((Reaches.refl e).run _) later verified
    obtain ⟨step, closing, accepted⟩ := closes _ prepared
    cases closing
    exact accepted _ _ deliverable pending payment onPath
  · obtain ⟨-, opens⟩ := prepared_accepted created ((Reaches.refl e).run _) later' verified'
    obtain ⟨final, answered, hid⟩ := opens Sample.request rfl prepared' _ deliverable' onPath'
      (by rw [clock]; exact period ▸ by decide) (by rw [next]; decide)
    exact ⟨final, answered, by rw [hid, Ledger.nextId, next]⟩

end Countersign
