import Countersign.Proofs.Submission

/-!
# What was signed is what happens

An accepted payload is authentic, and the step that accepts it does what its snapshot and terms say
and nothing else: the closed record shows the snapshot, and what is dispatched is computed from the
snapshot (`Honours`). A payload that shows another payment than the record has is rejected; one that
was signed before the payment was changed is accepted again once the payment is changed back.
-/

namespace Countersign

open MetaTx (MetaStep Snapshot)

/-! ## What a snapshot asks for -/

namespace MetaTx.Snapshot

/-- The call of a snapshot, made for the record under a number. -/
def call? (s : Snapshot) (id : TxId) : Option Call :=
  s.request.execution.payload?.map fun payload =>
    ⟨id, s.request.target, s.request.value, s.request.gasLimit, payload⟩

/-- The payment of a snapshot, unless it is empty. -/
def due? (s : Snapshot) (id : TxId) : Option (TxId × Payment) :=
  (s.payment.filter fun p => !p.isEmpty).map fun p => (id, p)

end MetaTx.Snapshot

namespace Engine

variable {e e' e₀ : Engine} {s : Snapshot} {r : Record} {id : TxId} {step : MetaStep}
  {tx : MetaTx.Signed} {relay : MetaTx.Relay} {reply : Reply} {message : Option Digest}

/-- The effects of a record with a status are those that a snapshot asks for: a call that leaves the
engine goes to the dispatcher, a call of the engine to its policy, and a payment is due on
completion. -/
structure CarriesOut (e e' : Engine) (s : Snapshot) (id : TxId) (status : Status) : Prop where
  calls : e'.dispatcher.calls = e.dispatcher.calls ++
    ((s.call? id).filter fun call => call.target ≠ e.identity).toList
  payments : e'.dispatcher.payments = e.dispatcher.payments ++
    if status = .completed then (s.due? id).toList else []
  timelock : e'.timelock =
    match s.call? id with
    | none => e.timelock
    | some call =>
      if call.target = e.identity then (Governance.handleCall e.timelock call).1 else e.timelock

theorem carriesOut_of_carrying (hr : r.request = s.request) (hp : r.payment = s.payment)
    (hd : e'.dispatcher = (e.carrying r).2.1) (ht : e'.timelock = (e.carrying r).1) :
    CarriesOut e e' s r.id (e.executed r message).status := by
  have hcall : Call.ofRecord? r = s.call? r.id := by
    rw [Call.ofRecord?, hr]
    rfl
  have hdue : duePayment? r = s.due? r.id := by
    rw [duePayment?, hp]
    rfl
  constructor
  case calls =>
    rw [hd, ← hcall]
    exact execute_calls ..
  case payments =>
    rw [hd, ← hdue]
    exact execute_payments ..
  case timelock =>
    rw [ht, ← hcall]
    exact execute_state ..

/-! ## What an accepted payload brings about -/

/-- A payload that is valid here and now for a step. -/
structure Admits (e : Engine) (step : MetaStep) (tx : MetaTx.Signed) (relay : MetaTx.Relay) :
    Prop where
  chain : tx.terms.chainId = e.chainId
  contract : tx.terms.contract = e.identity
  digest : tx.digest = MetaTx.digest tx.snapshot tx.terms
  signature : verifyDigest tx.terms.signer tx.digest tx.signature = .ok ()
  callData : tx.callData = tx.terms.handler.bytes.toList ++ tx.digest.bytes.toList
  deadline : e.clock ≤ tx.terms.deadline
  gasPrice : tx.terms.maxGasPrice ≠ 0 → relay.gasPrice ≤ tx.terms.maxGasPrice
  action : tx.terms.action = step.signing

/-- A step from `e` to `e'` that closes `r` by a payload does what the payload says. -/
structure Honours (e : Engine) (step : MetaStep) (tx : MetaTx.Signed) (relay : MetaTx.Relay)
    (e' : Engine) (r : Record) : Prop extends Admits e step tx relay where
  /-- The record is stored, and it is the only one that changes. -/
  stored : ∀ id, e'.ledger.records.get? id =
    if id = r.id then some r else e.ledger.records.get? id
  request : r.request = tx.snapshot.request
  payment : r.payment = tx.snapshot.payment
  message : r.message = some tx.digest
  /-- Opened and approved in one, the record is new and the signer's own. -/
  fresh : step = .requestAndApprove → r.id = e.ledger.nextId ∧ e.ledger.records.get? r.id = none ∧
    tx.snapshot.txId = .unallocated ∧ tx.snapshot.request.requester = tx.terms.signer ∧
    r.history = step.pair
  /-- Approved or cancelled, it is the pending one that the snapshot names. -/
  known : step ≠ .requestAndApprove → r.id = tx.snapshot.txId ∧
    ∃ before, e.ledger.HasPending r.id before ∧ r.history = before.history ++ step.pair
  status : if step = .cancel then r.status = .cancelled
    else r.status = .completed ∨ r.status = .failed
  effects : if step = .cancel then e'.dispatcher = e.dispatcher ∧ e'.timelock = e.timelock
    else CarriesOut e e' tx.snapshot r.id r.status
  /-- Of the rest only the nonce moves. -/
  rest : e'.verifier = e.verifier.spend tx.terms.signer ∧ e'.identity = e.identity ∧
    e'.access = e.access ∧ e'.catalog = e.catalog ∧ e'.clock = e.clock

theorem SignedFor.admits (h : e.SignedFor step tx relay)
    (contract : e.verifier.identity = e.identity) : e.Admits step tx relay where
  chain := h.authentic.chain
  contract := h.authentic.contract.trans contract
  digest := h.authentic.digest.symm
  signature := h.authentic.signature
  callData := h.authentic.callData
  deadline := h.authentic.deadline
  gasPrice hne := h.authentic.gasPrice.resolve_left hne
  action := h.action

theorem MayClose.shows (may : e.MayClose step tx relay r) :
    r.id = tx.snapshot.txId ∧ r.request = tx.snapshot.request ∧
      r.payment = tx.snapshot.payment := by
  rw [← may.snapshot]
  exact ⟨rfl, rfl, rfl⟩

theorem honours_of_approveSigned (may : e.MayClose .approve tx relay r)
    (contract : e.verifier.identity = e.identity) :
    e.Honours .approve tx relay
      ((e.spending tx.terms.signer).approved tx.snapshot.txId r tx.terms.signer .signMetaApprove
        MetaStep.approve.pair (some tx.digest))
      (e.executed (r.extended MetaStep.approve.pair) (some tx.digest)) := by
  obtain ⟨hid, hr, hp⟩ := may.shows
  refine { may.toSignedFor.admits contract with
    stored := ?_, request := hr, payment := hp, message := rfl, fresh := ?_, known := ?_
    status := ?_, effects := ?_, rest := ⟨rfl, rfl, rfl, rfl, rfl⟩ }
  · intro id
    rw [approved_ledger, Ledger.get?_close, ← hid]
    rfl
  · intro h
    cases h
  · intro _
    refine ⟨hid, r, ?_, rfl⟩
    exact hid ▸ may.pending
  · rw [if_neg (by decide)]
    exact executed_status ..
  · rw [if_neg (by decide)]
    exact carriesOut_of_carrying (r := r.extended MetaStep.approve.pair) hr hp rfl rfl

theorem honours_of_cancelSigned (may : e.MayClose .cancel tx relay r)
    (contract : e.verifier.identity = e.identity) :
    e.Honours .cancel tx relay
      ((e.spending tx.terms.signer).cancelled tx.snapshot.txId r tx.terms.signer .signMetaCancel
        MetaStep.cancel.pair (some tx.digest))
      (calledOff r MetaStep.cancel.pair (some tx.digest)) := by
  obtain ⟨hid, hr, hp⟩ := may.shows
  refine { may.toSignedFor.admits contract with
    stored := ?_, request := hr, payment := hp, message := rfl, fresh := ?_, known := ?_
    status := ?_, effects := ?_, rest := ⟨rfl, rfl, rfl, rfl, rfl⟩ }
  · intro id
    rw [cancelled_ledger, Ledger.get?_close, ← hid]
    rfl
  · intro h
    cases h
  · intro _
    refine ⟨hid, r, ?_, rfl⟩
    exact hid ▸ may.pending
  · rw [if_pos rfl]
    rfl
  · rw [if_pos rfl]
    exact ⟨rfl, rfl⟩

theorem honours_of_requestSigned {release : UInt64} (may : e.MayOpen tx relay release)
    (room : e.ledger.HasRoom) (contract : e.verifier.identity = e.identity) :
    e.Honours .requestAndApprove tx relay (e.requestedSigned tx release)
      (e.executed (e.signedRecord tx release) (some tx.digest)) := by
  refine { may.toSignedFor.admits contract with
    stored := ?_, request := rfl, payment := rfl, message := rfl, fresh := ?_, known := ?_
    status := ?_, effects := ?_, rest := ⟨rfl, rfl, rfl, rfl, rfl⟩ }
  · intro id
    rw [requestedSigned_ledger, Ledger.get?_close_opening]
    rfl
  · intro _
    exact ⟨rfl, room.free, may.unallocated, may.requester, rfl⟩
  · intro h
    exact absurd rfl h
  · rw [if_neg (by decide)]
    exact executed_status ..
  · rw [if_neg (by decide)]
    exact carriesOut_of_carrying (r := e.signedRecord tx release) rfl rfl rfl rfl

/-- Of an engine whose verifier stands in its place, every accepted payload is honoured. -/
theorem Accepts.honours {e' : Engine} (h : e.Accepts (step.submit tx relay) e' reply)
    (contract : e.verifier.identity = e.identity) :
    ∃ r, reply = .closed r ∧ e.Honours step tx relay e' r := by
  cases step with
  | approve =>
    cases h with
    | approveSigned may fits => exact ⟨_, rfl, honours_of_approveSigned may contract⟩
  | cancel =>
    cases h with
    | cancelSigned may fits => exact ⟨_, rfl, honours_of_cancelSigned may contract⟩
  | requestAndApprove =>
    cases h with
    | requestSigned may fits room => exact ⟨_, rfl, honours_of_requestSigned may room contract⟩

/-! ## Payloads that were prepared before a change -/

/-- A payload for another step is rejected at once. -/
theorem step_of_action_ne (h : tx.terms.action ≠ step.signing) :
    e.step (step.submit tx relay) =
      (e, .error (.actionMismatch step.signing tx.terms.action)) := by
  have hs : requireStep step tx.terms.action =
      .error (.actionMismatch step.signing tx.terms.action) := ensure_eq_error_iff.mpr ⟨h, rfl⟩
  apply step_submit_of_error
  · intro _
    rw [checkClosing, hs]
    rfl
  · rintro rfl
    rw [checkOpening, hs]
    rfl

/-- A payload that shows another payment than the record it names is rejected. -/
theorem step_of_payment_ne (hstep : step ≠ .requestAndApprove)
    (stored : e.ledger.records.get? tx.snapshot.txId = some r)
    (changed : r.payment ≠ tx.snapshot.payment) :
    ∃ fault, e.step (step.submit tx relay) = (e, .error fault) := by
  have hclose {step' : MetaStep} : ¬ ∃ r', e.MayClose step' tx relay r' := by
    rintro ⟨r', may⟩
    have hr : r' = r := Option.some.inj (may.pending.stored.symm.trans stored)
    exact changed (hr ▸ may.shows.2.2)
  cases step with
  | approve =>
    rcases approveSigned_cases e tx relay with ⟨_, may, -⟩ | ⟨fault, h⟩
    · exact absurd ⟨_, may⟩ hclose
    · exact ⟨fault, by rw [MetaStep.submit, Engine.step, h]; rfl⟩
  | cancel =>
    rcases cancelSigned_cases e tx relay with ⟨_, may, -⟩ | ⟨fault, h⟩
    · exact absurd ⟨_, may⟩ hclose
    · exact ⟨fault, by rw [MetaStep.submit, Engine.step, h]; rfl⟩
  | requestAndApprove => exact absurd rfl hstep

/-- A prepared payload is rejected as long as the record has another payment. -/
theorem step_of_prepared {earlier : Engine} (numbered : earlier.ledger.Numbered) {t : MetaTx.Terms}
    {draft : MetaTx.Draft} {r r' : Record} (prepared : earlier.prepareClosing id t = .ok draft)
    (before : earlier.ledger.records.get? id = some r) (now : e.ledger.records.get? id = some r')
    (changed : r'.payment ≠ r.payment) (step : MetaStep) (signature : Bytes)
    (relay : MetaTx.Relay) :
    ∃ fault, e.step (step.submit (draft.withSignature signature) relay) = (e, .error fault) := by
  obtain ⟨r₁, closing, hr₁, hclosing, -, rfl⟩ := prepareClosing_eq_ok_iff.mp prepared
  have hr : r₁ = r := Option.some.inj (hr₁.stored.symm.trans before)
  subst hr
  have hid : r₁.id = id := (numbered id r₁ before).1
  by_cases hstep : step = .requestAndApprove
  · -- What was prepared to close a record is not signed for opening one.
    subst hstep
    refine ⟨_, step_of_action_ne fun h => ?_⟩
    have hact : t.action = .signMetaRequestAndApprove := h
    rw [hact] at hclosing
    cases hclosing
  · refine step_of_payment_ne hstep (r := r') ?_ changed
    show e.ledger.records.get? r₁.id = some r'
    rw [hid, now]

/-! ## Reachable engines -/

/-- In every engine that a new one reaches, an accepted payload is honoured, and a payload is
rejected as long as the record it names has another payment, be it one that was prepared when the
record still had the payload's. -/
theorem accepted_payload_honoured {config : EngineConfig} {clock : UInt64} {sink : EventSink}
    {dispatcher : Dispatcher} (created : create config clock sink dispatcher = .ok e₀)
    (reached : Reaches e₀ e) :
    (∀ (step : MetaStep) tx relay e' reply, e.step (step.submit tx relay) = (e', .ok reply) →
      ∃ r, reply = .closed r ∧ e.Honours step tx relay e' r) ∧
    (∀ (step : MetaStep) tx relay r, step ≠ .requestAndApprove →
      e.ledger.records.get? tx.snapshot.txId = some r → r.payment ≠ tx.snapshot.payment →
      ∃ fault, e.step (step.submit tx relay) = (e, .error fault)) ∧
    ∀ earlier id terms draft r r', Reaches e₀ earlier →
      earlier.prepareClosing id terms = .ok draft → earlier.ledger.records.get? id = some r →
      e.ledger.records.get? id = some r' → r'.payment ≠ r.payment →
      ∀ (step : MetaStep) signature relay, ∃ fault,
        e.step (step.submit (draft.withSignature signature) relay) = (e, .error fault) := by
  have hnew := isNew_of_create created
  refine ⟨?_, ?_, ?_⟩
  · intro step tx relay e' reply h
    obtain ⟨cs, rfl⟩ := reaches_iff.mp reached
    have contract : (e₀.run cs).verifier.identity = (e₀.run cs).identity :=
      (hnew.contract_run cs).trans (grows_run e₀ cs).identity.symm
    exact (step_eq_ok_iff.mp h).honours contract
  · intro step tx relay r hstep stored changed
    exact step_of_payment_ne hstep stored changed
  · intro earlier id terms draft r r' hearlier prepared before now changed step signature relay
    obtain ⟨cs, rfl⟩ := reaches_iff.mp hearlier
    exact step_of_prepared (hnew.numbered cs) prepared before now changed step signature relay

/-! ## A payment that is changed and changed back -/

/-- The sample's draft is the one that the engine prepares after the first payment, and then the
payment is changed. -/
theorem sample_prepared : Sample.holds Sample.opening (fun e =>
    match e.prepareClosing Sample.txId Sample.draft.terms with
    | .ok draft => decide (draft = Sample.draft ∧
        (e.ledger.records.get? Sample.txId).map Record.payment = some (some Sample.payment) ∧
        ((e.run [.attachPayment Sample.txId Sample.owner Sample.otherPayment]).ledger.records.get?
          Sample.txId).map Record.payment = some (some Sample.otherPayment))
    | .error _ => false) = true := by
  decide +kernel

theorem exists_sample_prepared {e : Engine}
    (created : create Sample.config 100 (.memory []) .empty = .ok e) : ∃ r r',
    (e.run Sample.opening).prepareClosing Sample.txId Sample.draft.terms = .ok Sample.draft ∧
      (e.run Sample.opening).ledger.records.get? Sample.txId = some r ∧
      (e.run Sample.changed).ledger.records.get? Sample.txId = some r' ∧
      r'.payment ≠ r.payment := by
  obtain ⟨e', created', h⟩ := Sample.exists_of_holds sample_prepared
  have he : e' = e := Except.ok.inj (created'.symm.trans created)
  subst he
  split at h
  · next draft hd =>
    obtain ⟨rfl, hbefore, hafter⟩ := of_decide_eq_true h
    obtain ⟨r, hr, hp⟩ := Option.map_eq_some_iff.mp hbefore
    obtain ⟨r', hr', hp'⟩ := Option.map_eq_some_iff.mp hafter
    refine ⟨r, r', hd, hr, ?_, ?_⟩
    · rw [Sample.changed, run_append]
      exact hr'
    · rw [hp, hp']
      decide
  · cases h

/-- A payload is accepted although the payment was changed after it had been prepared: the payment
has been changed back since. -/
theorem sample_accepted_after_change : ∃ e r r' reply,
    create Sample.config 100 (.memory []) .empty = .ok e ∧
      (e.run Sample.opening).prepareClosing Sample.txId Sample.draft.terms = .ok Sample.draft ∧
      (e.run Sample.opening).ledger.records.get? Sample.txId = some r ∧
      (e.run Sample.changed).ledger.records.get? Sample.txId = some r' ∧
      r'.payment ≠ r.payment ∧
      (∃ signature, Sample.payload = Sample.draft.withSignature signature) ∧
      Sample.restored = Sample.changed ++ [.attachPayment Sample.txId Sample.owner Sample.payment] ∧
      ((e.run Sample.restored).step
        (MetaStep.approve.submit Sample.payload Sample.relay)).2 = .ok reply := by
  obtain ⟨e, reply, created, hok, -⟩ := Sample.exists_completed
  obtain ⟨r, r', prepared, before, after, changed⟩ := exists_sample_prepared created
  exact ⟨e, r, r', reply, created, prepared, before, after, changed, ⟨_, rfl⟩, rfl, hok⟩

/-- Until then it is rejected, and what it closes in the end is the record with the payment it
shows. -/
theorem sample_honoured : ∃ e e' r fault, create Sample.config 100 (.memory []) .empty = .ok e ∧
    (e.run Sample.changed).step (MetaStep.approve.submit Sample.payload Sample.relay) =
      (e.run Sample.changed, .error fault) ∧
    (e.run Sample.restored).Honours .approve Sample.payload Sample.relay e' r ∧
    r.payment = some Sample.payment := by
  obtain ⟨e, reply, created, hok, -⟩ := Sample.exists_completed
  obtain ⟨r, r', prepared, before, after, changed⟩ := exists_sample_prepared created
  have hsubmit :
      (e.run Sample.restored).step (MetaStep.approve.submit Sample.payload Sample.relay) =
        (e.run Sample.commands, .ok reply) := by
    rw [Sample.commands, run_concat]
    exact step_eq_of_ok hok
  have hsigned : Sample.draft.withSignature Sample.payload.signature = Sample.payload := rfl
  obtain ⟨honoured, -, -⟩ :=
    accepted_payload_honoured created ((Reaches.refl e).run Sample.restored)
  obtain ⟨-, -, rejected⟩ :=
    accepted_payload_honoured created ((Reaches.refl e).run Sample.changed)
  obtain ⟨final, -, hfinal⟩ := honoured .approve _ _ _ _ hsubmit
  obtain ⟨fault, hfault⟩ := rejected _ _ _ _ _ _ ((Reaches.refl e).run Sample.opening)
    prepared before after changed .approve Sample.payload.signature Sample.relay
  rw [hsigned] at hfault
  exact ⟨e, _, final, fault, created, hfault, hfinal, hfinal.payment⟩

end Engine

end Countersign
