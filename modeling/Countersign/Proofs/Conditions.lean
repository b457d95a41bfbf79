import Countersign.Engine.MetaTrack
import Countersign.Proofs.Access
import Countersign.Proofs.Ledger

/-!
# When the engine goes ahead

The checks of `Engine.Check`, one after the other, say yes exactly under a conjunction of
conditions. Here each conjunction has a name and named parts (`MayRequest`, `MayApprove`, …), and a
lemma `…_eq_ok_iff` puts it in the place of its check. No proof below needs the checks themselves.
-/

namespace Countersign

open MetaTx (MetaStep)

/-! ## Time-locks -/

section TimeLock

variable {p : TimeLockPolicy} {operation : OperationType} {now release : UInt64}

theorem TimeLockPolicy.releaseTime_eq_ok_iff :
    p.releaseTime operation now = .ok release ↔
      release.toNat = now.toNat + (p.periodFor operation).toNat := by
  rw [← add?_eq_some_iff, TimeLockPolicy.releaseTime]
  cases add? now (p.periodFor operation) with
  | none => simp
  | some t => simp

theorem TimeLockPolicy.requireCancellable_eq_ok_iff {id : TxId} :
    p.requireCancellable id operation release now = .ok () ↔
      (p.cancelWindow operation = .afterRelease → release ≤ now) := by
  rw [TimeLockPolicy.requireCancellable]
  cases h : p.cancelWindow operation with
  | anytime => simp
  | afterRelease => simp [requireReleased]

end TimeLock

/-! ## Payloads -/

namespace MetaTx.Verifier

/-- All that is checked of a payload before its nonce. -/
structure Authentic (v : Verifier) (tx : Signed) (now : UInt64) (gasPrice : Amount) : Prop where
  chain : tx.terms.chainId = v.chainId
  contract : tx.terms.contract = v.identity
  digest : MetaTx.digest tx.snapshot tx.terms = tx.digest
  callData : tx.callData = MetaTx.callData tx.terms.handler tx.digest
  signature : verifyDigest tx.terms.signer tx.digest tx.signature = .ok ()
  deadline : now ≤ tx.terms.deadline
  gasPrice : tx.terms.maxGasPrice = 0 ∨ gasPrice ≤ tx.terms.maxGasPrice

variable {v : Verifier} {tx : Signed} {now : UInt64} {gasPrice : Amount}

theorem requireSignature_eq_ok_iff {signer : Identity} {g : Digest} {signature : Bytes} :
    requireSignature signer g signature = .ok () ↔ verifyDigest signer g signature = .ok () := by
  rw [requireSignature]
  cases verifyDigest signer g signature with
  | ok u => simp
  | error refusal => simp

/-- Of an authentic payload only the nonce is left to check. -/
theorem Authentic.check_eq (h : v.Authentic tx now gasPrice) :
    v.check tx now gasPrice = v.nonces.requireNext tx.terms.signer tx.terms.nonce := by
  have hs : requireSignature tx.terms.signer tx.digest tx.signature = .ok () :=
    requireSignature_eq_ok_iff.mpr h.signature
  rw [check]
  simp only [h.digest, ensure, h.chain, h.contract, h.callData, h.deadline, h.gasPrice, hs,
    ↓reduceIte, bind, Except.bind]

theorem check_eq_ok_iff :
    v.check tx now gasPrice = .ok () ↔
      v.Authentic tx now gasPrice ∧ tx.terms.nonce = v.nonce tx.terms.signer := by
  constructor
  · intro h
    simp only [check, bind_eq_ok_iff, exists_unit_iff, ensure_eq_ok_iff, requireSignature_eq_ok_iff,
      Nonces.requireNext] at h
    obtain ⟨h1, h2, h3, h4, h5, h6, h7, h8⟩ := h
    rw [h3] at h4 h5
    exact ⟨⟨h1, h2, h3, h4, h5, h6, h7⟩, h8⟩
  · rintro ⟨h, hn⟩
    rw [h.check_eq, Nonces.requireNext, ensure_eq_ok_iff]
    exact hn

/-- The verifier with a signer's nonce one up. -/
def spend (v : Verifier) (signer : Identity) : Verifier :=
  { v with nonces := ⟨v.nonces.counters.insert signer (v.nonce signer + 1)⟩ }

theorem nonce_spend {signer other : Identity} :
    (v.spend signer).nonce other =
      if other = signer then v.nonce signer + 1 else v.nonce other := by
  simp only [nonce, spend, Nonces.current, SortedMap.get?_insert]
  split <;> rfl

theorem spend_comm {signer other : Identity} (h : signer ≠ other) :
    (v.spend signer).spend other = (v.spend other).spend signer := by
  have kept : (v.spend signer).nonce other = v.nonce other :=
    nonce_spend.trans (if_neg (Ne.symm h))
  have kept' : (v.spend other).nonce signer = v.nonce signer := nonce_spend.trans (if_neg h)
  rw [spend, kept, spend.eq_def (v.spend other), kept']
  simp only [spend, SortedMap.insert_comm h]

theorem consume_eq_ok_iff {v' : Verifier} {next : UInt64}
    (h : tx.terms.nonce = v.nonce tx.terms.signer) :
    v.consume tx = .ok (v', next) ↔
      (v.nonce tx.terms.signer).toNat + 1 < UInt64.size ∧ v' = v.spend tx.terms.signer ∧
        next = v.nonce tx.terms.signer + 1 := by
  have hr : v.nonces.requireNext tx.terms.signer (v.nonce tx.terms.signer) = .ok () := by
    rw [Nonces.requireNext, ensure_eq_ok_iff]; rfl
  rw [consume, h, Nonces.consume, hr]
  by_cases hn : (v.nonce tx.terms.signer).toNat + 1 < UInt64.size
  · simp only [add?, UInt64.toNat_one, hn, ↓reduceIte, bind, Except.bind, pure, Except.pure,
      Except.ok.injEq, Prod.mk.injEq, true_and, spend]
    exact and_congr eq_comm eq_comm
  · simp [add?, hn, bind, Except.bind, throw, throwThe, MonadExceptOf.throw]

end MetaTx.Verifier

namespace Engine

variable {e : Engine}

/-! ## Registrations -/

/-- The handler is a declared function of the operation type that supports the actions. -/
def Serves (e : Engine) (handler : Selector) (operation : OperationType) (actions : List Action) :
    Prop :=
  ∃ schema, e.access.functions.get? handler = some schema ∧ schema.operation = operation ∧
    ∀ a ∈ actions, schema.supports a = true

theorem requireHandler_eq_ok_iff {handler : Selector} {operation : OperationType}
    {actions : List Action} :
    e.requireHandler handler operation actions = .ok () ↔ e.Serves handler operation actions := by
  simp only [requireHandler, bind_eq_ok_iff, ensure_eq_ok_iff, AccessRegistry.function_eq_ok_iff,
    AccessRegistry.requireSupport_eq_ok_iff, exists_unit_iff, Serves]

theorem requireExecution_eq_ok_iff {r : Request} :
    e.requireExecution r = .ok () ↔ executionFlaw? e.identity r = none := by
  rw [requireExecution]
  cases executionFlaw? e.identity r with
  | none => simp
  | some flaw => simp

theorem requirePayment_eq_ok_iff {r : Request} {p : Payment} :
    e.requirePayment r p = .ok () ↔ paymentFlaw? e.identity r p = none := by
  rw [requirePayment]
  cases paymentFlaw? e.identity r p with
  | none => simp
  | some flaw => simp

/-! ## The delay track -/

/-- A request through a handler, released at a time. -/
structure MayRequest (e : Engine) (handler : Selector) (r : Request) (release : UInt64) : Prop where
  registered : e.catalog.contains r.operation = true
  served : e.Serves handler r.operation [.timeDelayRequest]
  onPath : e.catalog.permits r.operation [.timeDelayRequest] = true
  execution : executionFlaw? e.identity r = none
  granted : e.access.allows r.requester handler .timeDelayRequest = true
  release : release.toNat = e.clock.toNat + (e.timelock.periodFor r.operation).toNat

/-- A payment for the caller's own pending record. -/
structure MayAttach (e : Engine) (id : TxId) (caller : Identity) (p : Payment) (r : Record) :
    Prop where
  pending : e.ledger.HasPending id r
  requester : r.request.requester = caller
  payment : paymentFlaw? e.identity r.request p = none

/-- An approval of a released record. -/
structure MayApprove (e : Engine) (id : TxId) (caller : Identity) (r : Record) : Prop where
  pending : e.ledger.HasPending id r
  granted : e.access.allows caller r.handler .timeDelayApprove = true
  onPath : e.catalog.permits r.operation (r.history ++ [.timeDelayApprove]) = true
  released : r.releaseTime ≤ e.clock

/-- A cancellation inside the cancel window. -/
structure MayCancel (e : Engine) (id : TxId) (caller : Identity) (r : Record) : Prop where
  pending : e.ledger.HasPending id r
  granted : e.access.allows caller r.handler .timeDelayCancel = true
  onPath : e.catalog.permits r.operation (r.history ++ [.timeDelayCancel]) = true
  window : e.timelock.cancelWindow r.operation = .afterRelease → r.releaseTime ≤ e.clock

theorem checkRequest_eq_ok_iff {handler : Selector} {r : Request} {release : UInt64} :
    e.checkRequest handler r = .ok release ↔ e.MayRequest handler r release := by
  simp only [checkRequest, requireOperation, requireWorkflow, requireGrant, bind_eq_ok_iff,
    ensure_eq_ok_iff, requireHandler_eq_ok_iff, requireExecution_eq_ok_iff, exists_unit_iff,
    TimeLockPolicy.releaseTime_eq_ok_iff, List.nil_append]
  constructor
  · rintro ⟨h1, h2, h3, h4, h5, h6⟩
    exact ⟨h1, h2, h3, h4, h5, h6⟩
  · rintro ⟨h1, h2, h3, h4, h5, h6⟩
    exact ⟨h1, h2, h3, h4, h5, h6⟩

theorem checkPayment_eq_ok_iff {id : TxId} {caller : Identity} {p : Payment} :
    e.checkPayment id caller p = .ok () ↔ ∃ r, e.MayAttach id caller p r := by
  simp only [checkPayment, bind_eq_ok_iff, Ledger.pendingRecord_eq_ok_iff, ensure_eq_ok_iff,
    requirePayment_eq_ok_iff, exists_unit_iff]
  constructor
  · rintro ⟨r, h1, h2, h3⟩
    exact ⟨r, h1, h2, h3⟩
  · rintro ⟨r, h1, h2, h3⟩
    exact ⟨r, h1, h2, h3⟩

theorem checkApproval_eq_ok_iff {id : TxId} {caller : Identity} {r : Record} :
    e.checkApproval id caller = .ok r ↔ e.MayApprove id caller r := by
  simp only [checkApproval, requireGrant, requireWorkflow, requireReleased, bind_eq_ok_iff,
    Ledger.pendingRecord_eq_ok_iff, ensure_eq_ok_iff, exists_unit_iff, pure_eq_ok_iff]
  constructor
  · rintro ⟨_, h1, h2, h3, h4, rfl⟩
    exact ⟨h1, h2, h3, h4⟩
  · rintro ⟨h1, h2, h3, h4⟩
    exact ⟨r, h1, h2, h3, h4, rfl⟩

theorem checkCancellation_eq_ok_iff {id : TxId} {caller : Identity} {r : Record} :
    e.checkCancellation id caller = .ok r ↔ e.MayCancel id caller r := by
  simp only [checkCancellation, requireGrant, requireWorkflow, bind_eq_ok_iff,
    Ledger.pendingRecord_eq_ok_iff, ensure_eq_ok_iff, exists_unit_iff, pure_eq_ok_iff,
    TimeLockPolicy.requireCancellable_eq_ok_iff]
  constructor
  · rintro ⟨_, h1, h2, h3, h4, rfl⟩
    exact ⟨h1, h2, h3, h4⟩
  · rintro ⟨h1, h2, h3, h4⟩
    exact ⟨r, h1, h2, h3, h4, rfl⟩

/-! ## The meta-transaction track -/

/-- What a signer and a relayer need for a step, whatever it is done to. -/
structure SignedFor (e : Engine) (step : MetaStep) (tx : MetaTx.Signed) (relay : MetaTx.Relay) :
    Prop where
  action : tx.terms.action = step.signing
  authentic : e.verifier.Authentic tx e.clock relay.gasPrice
  nonce : tx.terms.nonce = e.nonce tx.terms.signer
  signer : e.access.allows tx.terms.signer tx.terms.handler step.signing = true
  relayer : e.access.allows relay.relayer tx.terms.handler step.executing = true

/-- A step that closes the pending record which the payload shows. -/
structure MayClose (e : Engine) (step : MetaStep) (tx : MetaTx.Signed) (relay : MetaTx.Relay)
    (r : Record) : Prop extends e.SignedFor step tx relay where
  pending : e.ledger.HasPending tx.snapshot.txId r
  snapshot : MetaTx.Snapshot.ofRecord r = tx.snapshot
  served : e.Serves tx.terms.handler r.operation step.pair
  onPath : e.catalog.permits r.operation (r.history ++ step.pair) = true

/-- A request and approval in one, released at a time. -/
structure MayOpen (e : Engine) (tx : MetaTx.Signed) (relay : MetaTx.Relay) (release : UInt64) :
    Prop extends e.SignedFor .requestAndApprove tx relay where
  unallocated : tx.snapshot.txId = .unallocated
  requester : tx.snapshot.request.requester = tx.terms.signer
  registered : e.catalog.contains tx.snapshot.request.operation = true
  served : e.Serves tx.terms.handler tx.snapshot.request.operation MetaStep.requestAndApprove.pair
  onPath : e.catalog.permits tx.snapshot.request.operation MetaStep.requestAndApprove.pair = true
  execution : executionFlaw? e.identity tx.snapshot.request = none
  payment : ∀ p, tx.snapshot.payment = some p → paymentFlaw? e.identity tx.snapshot.request p = none
  release : release.toNat =
    e.clock.toNat + (e.timelock.periodFor tx.snapshot.request.operation).toNat

theorem checkClosing_eq_ok_iff {step : MetaStep} {tx : MetaTx.Signed} {relay : MetaTx.Relay}
    {r : Record} :
    e.checkClosing step tx relay = .ok r ↔ e.MayClose step tx relay r := by
  simp only [checkClosing, requireStep, requireWorkflow, requirePair, requireGrant, bind_eq_ok_iff,
    MetaTx.Verifier.check_eq_ok_iff, Ledger.pendingRecord_eq_ok_iff, ensure_eq_ok_iff,
    requireHandler_eq_ok_iff, exists_unit_iff, pure_eq_ok_iff]
  constructor
  · rintro ⟨h1, ⟨h2, h3⟩, _, h4, h5, h6, h7, ⟨h8, h9⟩, rfl⟩
    exact ⟨⟨h1, h2, h3, h8, h9⟩, h4, h5, h6, h7⟩
  · rintro ⟨⟨h1, h2, h3, h8, h9⟩, h4, h5, h6, h7⟩
    exact ⟨h1, ⟨h2, h3⟩, r, h4, h5, h6, h7, ⟨h8, h9⟩, rfl⟩

theorem requireSnapshotPayment_eq_ok_iff {s : MetaTx.Snapshot} :
    e.requireSnapshotPayment s = .ok () ↔
      ∀ p, s.payment = some p → paymentFlaw? e.identity s.request p = none := by
  rw [requireSnapshotPayment]
  cases s.payment with
  | none => simp
  | some p => simp [requirePayment_eq_ok_iff]

theorem isAllocated_eq_false_iff {id : TxId} : id.isAllocated = false ↔ id = .unallocated := by
  rw [TxId.isAllocated, TxId.unallocated]
  cases id
  simp

theorem checkOpening_eq_ok_iff {tx : MetaTx.Signed} {relay : MetaTx.Relay} {release : UInt64} :
    e.checkOpening tx relay = .ok release ↔ e.MayOpen tx relay release := by
  simp only [checkOpening, requireStep, requireOperation, requireWorkflow, requirePair,
    requireGrant, bind_eq_ok_iff, MetaTx.Verifier.check_eq_ok_iff, ensure_eq_ok_iff,
    requireHandler_eq_ok_iff, requireExecution_eq_ok_iff, requireSnapshotPayment_eq_ok_iff,
    TimeLockPolicy.releaseTime_eq_ok_iff, isAllocated_eq_false_iff, exists_unit_iff,
    List.nil_append]
  constructor
  · rintro ⟨h1, h2, h3, h4, h5, h6, h7, h8, ⟨h9, h10⟩, ⟨h11, h12⟩, h13⟩
    exact ⟨⟨h1, h9, h10, h11, h12⟩, h2, h3, h4, h5, h6, h7, h8, h13⟩
  · rintro ⟨⟨h1, h9, h10, h11, h12⟩, h2, h3, h4, h5, h6, h7, h8, h13⟩
    exact ⟨h1, h2, h3, h4, h5, h6, h7, h8, ⟨h9, h10⟩, ⟨h11, h12⟩, h13⟩

end Engine

/-! ## Preparing payloads -/

theorem MetaTx.MetaStep.eq_signing_of_closing? {action : Action} {step : MetaStep}
    (h : closing? action = some step) : action = step.signing := by
  unfold closing? at h
  split at h
  · cases h
    rfl
  · cases h
    rfl
  · cases h

theorem Engine.prepareClosing_eq_ok_iff {e : Engine} {id : TxId} {t : MetaTx.Terms}
    {draft : MetaTx.Draft} :
    e.prepareClosing id t = .ok draft ↔
      ∃ r step, e.ledger.HasPending id r ∧ MetaStep.closing? t.action = some step ∧
        e.Serves t.handler r.operation step.pair ∧ draft = .of (.ofRecord r) t := by
  simp only [prepareClosing, bind_eq_ok_iff, Ledger.pendingRecord_eq_ok_iff]
  refine exists_congr fun r => ?_
  cases MetaStep.closing? t.action with
  | none => simp
  | some step =>
    simp only [bind_eq_ok_iff, requireHandler_eq_ok_iff, exists_unit_iff, pure_eq_ok_iff,
      Option.some.injEq]
    constructor
    · rintro ⟨pending, served, rfl⟩
      exact ⟨step, pending, rfl, served, rfl⟩
    · rintro ⟨_, pending, rfl, served, rfl⟩
      exact ⟨pending, served, rfl⟩

theorem Engine.prepareOpening_eq_ok_iff {e : Engine} {q : Request} {t : MetaTx.Terms}
    {draft : MetaTx.Draft} :
    e.prepareOpening q t = .ok draft ↔
      t.action = MetaStep.requestAndApprove.signing ∧ e.catalog.contains q.operation = true ∧
        e.Serves t.handler q.operation MetaStep.requestAndApprove.pair ∧
        executionFlaw? e.identity q = none ∧ draft = .of (.ofRequest q) t := by
  simp only [prepareOpening, requireStep, requireOperation, bind_eq_ok_iff, ensure_eq_ok_iff,
    requireHandler_eq_ok_iff, requireExecution_eq_ok_iff, exists_unit_iff, pure_eq_ok_iff]
  rw [eq_comm (a := draft)]

end Countersign
