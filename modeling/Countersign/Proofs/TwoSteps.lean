import Countersign.Proofs.Frame
import Countersign.Proofs.Submission

/-!
# One step or two

A request that is signed and approved in one comes to the same as a request on the delay track, its
payment and a signed approval one after the other (`one_step_agrees`): of a record that is carried out
only the number, the request and the payment count, and these are the same on both ways.
-/

namespace Countersign

open MetaTx (MetaStep)

/-- The commands that attach the payment of a snapshot to a record, if it has one. -/
def MetaTx.Snapshot.attaching (s : MetaTx.Snapshot) (id : TxId) : List Command :=
  (s.payment.map (Command.attachPayment id s.request.requester)).toList

/-- Two records may differ in the function they were requested through, the message and the history,
and nothing else. -/
structure Record.Agrees (r r' : Record) : Prop where
  id : r.id = r'.id
  request : r.request = r'.request
  status : r.status = r'.status
  result : r.result = r'.result
  payment : r.payment = r'.payment
  createdAt : r.createdAt = r'.createdAt
  releaseTime : r.releaseTime = r'.releaseTime

namespace Engine

variable {e e' e₁ e₂ a : Engine} {tx tx' : MetaTx.Signed} {relay relay' : MetaTx.Relay}
  {release : UInt64} {handler : Selector} {id : TxId} {r₁ r₂ : Record}

/-- Two engines may differ in the record under a number and in what their sinks have been told, and
nothing else. -/
structure Agrees (id : TxId) (e e' : Engine) : Prop where
  identity : e.identity = e'.identity
  records : ∀ j, j ≠ id → e.ledger.records.get? j = e'.ledger.records.get? j
  pending : e.ledger.pending = e'.ledger.pending
  next : e.ledger.next = e'.ledger.next
  verifier : e.verifier = e'.verifier
  access : e.access = e'.access
  catalog : e.catalog = e'.catalog
  timelock : e.timelock = e'.timelock
  clock : e.clock = e'.clock
  dispatcher : e.dispatcher = e'.dispatcher

/-! ## The first step -/

/-- The record of a payload's request on the delay track, with its payment. -/
def draftRecord (e : Engine) (handler : Selector) (tx : MetaTx.Signed) (release : UInt64) : Record :=
  { e.newRecord handler tx.snapshot.request release with payment := tx.snapshot.payment }

/-- The engine after the request and the payment of a payload. -/
def drafted (e : Engine) (handler : Selector) (tx : MetaTx.Signed) (release : UInt64) : Engine :=
  { e.requested handler tx.snapshot.request release with
    ledger := e.ledger.opening (e.draftRecord handler tx release) }

/-- A payload's payment may be attached to the record of its request. -/
theorem MayOpen.mayAttach (may : e.MayOpen tx relay release) (handler : Selector) {p : Payment}
    (hp : tx.snapshot.payment = some p) :
    (e.requested handler tx.snapshot.request release).MayAttach e.ledger.nextId
      tx.snapshot.request.requester p (e.newRecord handler tx.snapshot.request release) where
  pending := ⟨SortedMap.get?_insert_self, rfl⟩
  requester := rfl
  payment := may.payment p hp

theorem MayOpen.attached (may : e.MayOpen tx relay release) (handler : Selector) :
    (∀ c ∈ tx.snapshot.attaching e.ledger.nextId,
      ((e.requested handler tx.snapshot.request release).step c).2 = .ok .done) ∧
    (e.requested handler tx.snapshot.request release).run
      (tx.snapshot.attaching e.ledger.nextId) = e.drafted handler tx release := by
  unfold drafted draftRecord MetaTx.Snapshot.attaching
  cases hp : tx.snapshot.payment with
  | none =>
    exact ⟨fun c hc => (List.not_mem_nil hc).elim, rfl⟩
  | some p =>
    have step := (Accepts.attachPayment (may.mayAttach handler hp)).step_eq
    constructor
    · intro c hc
      obtain rfl := List.mem_singleton.mp hc
      rw [step]
    · show ((e.requested handler tx.snapshot.request release).step _).1 = _
      rw [step]
      exact congrArg (fun ledger =>
        { e.requested handler tx.snapshot.request release with ledger }) Ledger.put_opening

/-! ## The second step -/

/-- The two records are carried out in the same way. -/
theorem carrying_draftRecord (e : Engine) (handler : Selector) (tx : MetaTx.Signed)
    (release : UInt64) (actions : List Action) :
    (e.drafted handler tx release).carrying ((e.draftRecord handler tx release).extended actions) =
      e.carrying (e.signedRecord tx release) :=
  execute_congr rfl rfl rfl

theorem executed_agrees {actions : List Action} {message message' : Option Digest} :
    (e.executed (e.signedRecord tx release) message).Agrees
      ((e.drafted handler tx release).executed
        ((e.draftRecord handler tx release).extended actions) message') := by
  have same := carrying_draftRecord e handler tx release actions
  refine ⟨rfl, rfl, ?_, ?_, rfl, rfl, rfl⟩
  · unfold executed
    rw [same]
    rfl
  · unfold executed
    rw [same]
    rfl

/-- The engines afterwards differ in that record. -/
theorem approved_agrees {actor signer : Identity} {action : Action} {actions : List Action}
    {message : Option Digest} (same : signer = tx.terms.signer) :
    Agrees e.ledger.nextId (e.requestedSigned tx release)
      (((e.drafted handler tx release).spending signer).approved e.ledger.nextId
        (e.draftRecord handler tx release) actor action actions message) := by
  have carrying := carrying_draftRecord e handler tx release actions
  refine ⟨rfl, fun j hj => ?_, ?_, ?_, ?_, rfl, rfl, ?_, rfl, ?_⟩
  · rw [get?_requestedSigned, get?_approved, if_neg hj, if_neg hj]
    exact (Ledger.get?_opening.trans (if_neg hj)).symm
  · rw [requestedSigned_ledger, approved_ledger]
    rfl
  · rw [requestedSigned_ledger, approved_ledger]
    rfl
  · rw [same]
    rfl
  · exact (congrArg Prod.fst carrying).symm
  · exact (congrArg (fun carried => carried.2.1) carrying).symm

/-! ## Both -/

/-- The record of a request and approval in one. -/
theorem opened_of_ok (one : e.step (.requestSigned tx relay) = (e₁, .ok (.closed r₁))) :
    ∃ release, e.MayOpen tx relay release ∧ e₁ = e.requestedSigned tx release ∧
      r₁ = e.executed (e.signedRecord tx release) (some tx.digest) := by
  cases step_eq_ok_iff.mp one with
  | requestSigned may => exact ⟨_, may, rfl, rfl⟩

theorem requested_of_ok {q : Request}
    (requested : e.step (.request handler q) = (a, .ok (.opened id))) :
    ∃ release, e.MayRequest handler q release ∧ a = e.requested handler q release ∧
      id = e.ledger.nextId := by
  cases step_eq_ok_iff.mp requested with
  | request may => exact ⟨_, may, rfl, rfl⟩

/-- If a payload is accepted as a request and approval in one, and its request is accepted on the delay
track, then so is its payment, and a signed approval by the same signer, if that is accepted, leads to
the same record and the same engine. -/
theorem one_step_agrees (one : e.step (.requestSigned tx relay) = (e₁, .ok (.closed r₁)))
    (requested : e.step (.request handler tx.snapshot.request) = (a, .ok (.opened id))) :
    (∀ c ∈ tx.snapshot.attaching id, (a.step c).2 = .ok .done) ∧
    ∀ tx' relay' e₂ r₂, tx'.snapshot.txId = id → tx'.terms.signer = tx.terms.signer →
      (a.run (tx.snapshot.attaching id)).step (.approveSigned tx' relay') =
        (e₂, .ok (.closed r₂)) →
      e₁.ledger.records.get? id = some r₁ ∧ e₂.ledger.records.get? id = some r₂ ∧
        r₁.Agrees r₂ ∧ Agrees id e₁ e₂ := by
  obtain ⟨release, may, rfl, rfl⟩ := opened_of_ok one
  obtain ⟨release', mayRequest, rfl, rfl⟩ := requested_of_ok requested
  obtain rfl : release' = release :=
    UInt64.toNat.inj (mayRequest.release.trans may.release.symm)
  obtain ⟨attached, run⟩ := may.attached handler
  refine ⟨attached, fun tx' relay' e₂ r₂ hid signer approved => ?_⟩
  rw [run] at approved
  cases step_eq_ok_iff.mp approved with
  | @approveSigned _ _ r mayClose fits =>
    have stored := mayClose.pending.stored
    rw [hid] at stored ⊢
    -- The record that is approved is the one that was requested.
    obtain rfl : e.draftRecord handler tx release' = r :=
      Option.some.inj (SortedMap.get?_insert_self.symm.trans stored)
    refine ⟨?_, ?_, executed_agrees, approved_agrees signer⟩
    · rw [get?_requestedSigned, if_pos rfl]
    · rw [get?_approved, if_pos rfl]
      rfl

end Engine

/-!
## A payment

The owner's payment is requested and approved in one, or it is requested, attached and approved.
-/

namespace Sample

/-- A payload of the owner that requests and approves a payment. -/
def paidPayload : MetaTx.Signed :=
  (MetaTx.Draft.of ⟨.unallocated, request, some payment⟩ ⟨config.chainId,
    EngineConfig.standardIdentity, function.selector, .signMetaRequestAndApprove, 1000, 0, owner,
    0⟩).withSignature
    [69, 129, 25, 233, 224, 169, 114, 40, 75, 252, 94, 179, 164, 63, 62, 188, 162, 121, 142, 198, 14,
      131, 165, 253, 70, 203, 128, 203, 118, 219, 41, 216, 56, 74, 212, 165, 226, 212, 27, 200, 176,
      156, 61, 83, 157, 156, 132, 177, 108, 115, 213, 119, 80, 31, 35, 103, 39, 212, 236, 45, 20, 5,
      176, 14]

/-- The request and the payment on the delay track. -/
def inTwoSteps : List Command :=
  .request function.selector request :: paidPayload.snapshot.attaching txId

theorem pays_both_ways : holds declarations (fun e =>
    match e.step (.requestSigned paidPayload relay), e.step (.request function.selector request),
      (e.run inTwoSteps).step (.approveSigned payload relay) with
    | (_, .ok (.closed r)), (_, .ok (.opened id)), (_, .ok (.closed _)) =>
      decide (id = txId ∧ r.status = .completed)
    | _, _, _ => false) = true := by
  decide +kernel

end Sample

theorem Engine.sample_paid_both_ways : ∃ e₀ e₁ e₂ r₁ r₂,
    create Sample.config 100 (.memory []) .empty = .ok e₀ ∧
    let e := e₀.run Sample.declarations
    e.step (.requestSigned Sample.paidPayload Sample.relay) = (e₁, .ok (.closed r₁)) ∧
    (e.run Sample.inTwoSteps).step (.approveSigned Sample.payload Sample.relay) =
      (e₂, .ok (.closed r₂)) ∧
    r₁.status = .completed ∧ r₁.Agrees r₂ ∧ Agrees Sample.txId e₁ e₂ := by
  obtain ⟨e₀, created, h⟩ := Sample.exists_of_holds Sample.pays_both_ways
  split at h
  · next e₁ r₁ a id e₂ r₂ one requested approved =>
    obtain ⟨rfl, completed⟩ := of_decide_eq_true h
    have run : (e₀.run Sample.declarations).run Sample.inTwoSteps =
        a.run (Sample.paidPayload.snapshot.attaching Sample.txId) := by
      rw [Sample.inTwoSteps, run_cons, requested]
    obtain ⟨-, both⟩ := one_step_agrees one requested
    have approved' := approved
    rw [run] at approved'
    obtain ⟨-, -, records, engines⟩ := both Sample.payload Sample.relay e₂ r₂ rfl rfl approved'
    exact ⟨e₀, e₁, e₂, r₁, r₂, created, one, approved, completed, records, engines⟩
  · cases h

end Countersign
