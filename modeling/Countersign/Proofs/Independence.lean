import Countersign.Proofs.Events
import Countersign.Proofs.Governance

/-!
# Closing different records in either order

Approvals and cancellations, delayed or signed, are one kind of command: a `Closing` says which record
is closed, by whom and how. What a closing looks at is its own record, its signer's nonce, and things
that no closing changes (`Engine.Leaves`), and how it ends depends only on the dispatcher's answers and
on the one period that an update replaces. So two closings of different records, by different signers
and not updating one period, come to the same in either order (`closings_commute`).
-/

namespace Countersign

open MetaTx (MetaStep)
open Governance (PeriodUpdate)

def Command.isClosing : Command → Bool
  | approve .. | cancel .. | approveSigned .. | cancelSigned .. => true
  | _ => false

def Command.isApproval : Command → Bool
  | approve .. | approveSigned .. => true
  | _ => false

/-- How a record is closed: whether it is approved or cancelled, and by whom through which actions,
signed or not. -/
structure Closing where
  id : TxId
  approves : Bool
  actor : Identity
  action : Action
  actions : List Action
  message : Option Digest
  signer? : Option Identity

namespace Closing

variable {k l : Closing} {r s : Record}

/-- The update that a closing applies: that of the record, if it is approved. -/
def update? (k : Closing) (r : Record) : Option PeriodUpdate := if k.approves then r.update? else none

theorem update?_eq_some_iff {u : PeriodUpdate} :
    k.update? r = some u ↔ k.approves = true ∧ r.update? = some u := by
  unfold update?
  split
  · next h => simp [h]
  · next h => simp [h]

/-- The calls that a closing makes outside the engine. -/
def calls (k : Closing) (engine : Identity) (r : Record) : List Call :=
  if k.approves then (outwardCall? engine r).toList else []

/-- Two closings have nothing in common: neither the record, nor the signer, nor the period they
set. -/
structure Independent (k l : Closing) (r s : Record) : Prop where
  ids : k.id ≠ l.id
  signers : ∀ signer, k.signer? = some signer → l.signer? ≠ some signer
  updates : ∀ u v, k.update? r = some u → l.update? s = some v → u.operation ≠ v.operation

theorem Independent.symm (h : k.Independent l r s) : l.Independent k s r where
  ids := Ne.symm h.ids
  signers signer hl hk := h.signers signer hk hl
  updates v u hv hu := Ne.symm (h.updates u v hu hv)

end Closing

def TimeLockPolicy.updated (p : TimeLockPolicy) : Option PeriodUpdate → TimeLockPolicy
  | some u => p.withPeriod u.operation u.period
  | none => p

section Updates

variable {p : TimeLockPolicy} {u? v? : Option PeriodUpdate}

theorem TimeLockPolicy.updated_comm
    (h : ∀ u v, u? = some u → v? = some v → u.operation ≠ v.operation) :
    (p.updated u?).updated v? = (p.updated v?).updated u? := by
  cases u? with
  | none => rfl
  | some u =>
    cases v? with
    | none => rfl
    | some v => exact withPeriod_comm (h u v rfl rfl)

theorem TimeLockPolicy.periodFor_updated {operation : OperationType}
    (h : ∀ u, u? = some u → u.operation ≠ operation) :
    (p.updated u?).periodFor operation = p.periodFor operation := by
  cases u? with
  | none => rfl
  | some u => exact periodFor_withPeriod.trans (if_neg (Ne.symm (h u rfl)))

theorem TimeLockPolicy.cancelWindow_updated {operation : OperationType} :
    (p.updated u?).cancelWindow operation = p.cancelWindow operation := by
  cases u? <;> rfl

end Updates

/-- The verifier with a signer's nonce spent, if there is a signer. -/
def MetaTx.Verifier.spent (v : Verifier) : Option Identity → Verifier
  | some signer => v.spend signer
  | none => v

section Nonces

variable {v : MetaTx.Verifier} {signer? other? : Option Identity}

theorem MetaTx.Verifier.spent_comm (h : ∀ signer, signer? = some signer → other? ≠ some signer) :
    (v.spent signer?).spent other? = (v.spent other?).spent signer? := by
  cases signer? with
  | none => rfl
  | some signer =>
    cases other? with
    | none => rfl
    | some other => exact spend_comm fun he => h signer rfl (congrArg some he.symm)

theorem MetaTx.Verifier.nonce_spent {other : Identity} (h : signer? ≠ some other) :
    (v.spent signer?).nonce other = v.nonce other := by
  cases signer? with
  | none => rfl
  | some signer => exact nonce_spend.trans (if_neg fun he => h (congrArg some he.symm))

theorem MetaTx.Verifier.spent_place (v : Verifier) (signer? : Option Identity) :
    (v.spent signer?).chainId = v.chainId ∧ (v.spent signer?).identity = v.identity := by
  cases signer? <;> exact ⟨rfl, rfl⟩

end Nonces

namespace Engine

variable {e e' e₀ a b : Engine} {c d : Command} {k l : Closing} {r s : Record} {reply : Reply}

/-! ## What a closing does -/

/-- The record that a closing leaves of a pending one. -/
def settledRecord (e : Engine) (k : Closing) (r : Record) : Record :=
  if k.approves then e.executed (r.extended k.actions) k.message
  else calledOff r k.actions k.message

/-- The engine after the closing of a pending record. -/
def settled (e : Engine) (k : Closing) (r : Record) : Engine :=
  let e := { e with verifier := e.verifier.spent k.signer? }
  if k.approves then e.approved k.id r k.actor k.action k.actions k.message
  else e.cancelled k.id r k.actor k.action k.actions k.message

/-- A command may close a pending record in a certain way. -/
inductive MaySettle (e : Engine) : Command → Closing → Record → Prop where
  | approve {id : TxId} {caller : Identity} {r : Record} (may : e.MayApprove id caller r) :
      MaySettle e (.approve id caller)
        ⟨id, true, caller, .timeDelayApprove, [.timeDelayApprove], none, none⟩ r
  | cancel {id : TxId} {caller : Identity} {r : Record} (may : e.MayCancel id caller r) :
      MaySettle e (.cancel id caller)
        ⟨id, false, caller, .timeDelayCancel, [.timeDelayCancel], none, none⟩ r
  | approveSigned {tx : MetaTx.Signed} {relay : MetaTx.Relay} {r : Record}
      (may : e.MayClose .approve tx relay r) (fits : e.HasNonce tx.terms.signer) :
      MaySettle e (.approveSigned tx relay)
        ⟨tx.snapshot.txId, true, tx.terms.signer, .signMetaApprove, MetaStep.approve.pair,
          some tx.digest, some tx.terms.signer⟩ r
  | cancelSigned {tx : MetaTx.Signed} {relay : MetaTx.Relay} {r : Record}
      (may : e.MayClose .cancel tx relay r) (fits : e.HasNonce tx.terms.signer) :
      MaySettle e (.cancelSigned tx relay)
        ⟨tx.snapshot.txId, false, tx.terms.signer, .signMetaCancel, MetaStep.cancel.pair,
          some tx.digest, some tx.terms.signer⟩ r

namespace MaySettle

theorem accepts (h : e.MaySettle c k r) :
    e.Accepts c (e.settled k r) (.closed (e.settledRecord k r)) := by
  cases h with
  | approve may => exact .approve may
  | cancel may => exact .cancel may
  | approveSigned may fits => exact .approveSigned may fits
  | cancelSigned may fits => exact .cancelSigned may fits

theorem step_eq (h : e.MaySettle c k r) :
    e.step c = (e.settled k r, .ok (.closed (e.settledRecord k r))) :=
  h.accepts.step_eq

theorem pending (h : e.MaySettle c k r) : e.ledger.HasPending k.id r := by
  cases h with
  | approve may => exact may.pending
  | cancel may => exact may.pending
  | approveSigned may => exact may.pending
  | cancelSigned may => exact may.pending

/-- The closing is the one that the command asks for. -/
theorem asked (h : e.MaySettle c k r) : c.subject? = some k.id ∧ c.isApproval = k.approves ∧
    c.payload?.map (fun tx => tx.terms.signer) = k.signer? ∧ c ≠ .clearEvents := by
  cases h <;> exact ⟨rfl, rfl, rfl, Command.noConfusion⟩

end MaySettle

/-- An accepted closing has settled the record that it answers with. -/
theorem Accepts.maySettle (h : e.Accepts c e' reply) (closing : c.isClosing = true) :
    ∃ k r, e.MaySettle c k r ∧ e' = e.settled k r ∧ reply = .closed (e.settledRecord k r) := by
  cases h with
  | approve may => exact ⟨_, _, .approve may, rfl, rfl⟩
  | cancel may => exact ⟨_, _, .cancel may, rfl, rfl⟩
  | approveSigned may fits => exact ⟨_, _, .approveSigned may fits, rfl, rfl⟩
  | cancelSigned may fits => exact ⟨_, _, .cancelSigned may fits, rfl, rfl⟩
  | _ => cases closing

/-! ## What the engine holds afterwards -/

theorem settledRecord_update? : (e.settledRecord k r).update? = r.update? := by
  unfold settledRecord
  split <;> rfl

theorem settled_ledger : (e.settled k r).ledger = e.ledger.close k.id (e.settledRecord k r) := by
  unfold settled settledRecord
  split
  · rw [approved_ledger]
    rfl
  · rfl

theorem settled_verifier : (e.settled k r).verifier = e.verifier.spent k.signer? := by
  unfold settled
  split <;> rfl

theorem settled_same : (e.settled k r).identity = e.identity ∧ (e.settled k r).access = e.access ∧
    (e.settled k r).catalog = e.catalog ∧ (e.settled k r).clock = e.clock := by
  unfold settled
  split <;> exact ⟨rfl, rfl, rfl, rfl⟩

theorem settled_timelock (h : r.Governed e.identity) :
    (e.settled k r).timelock = e.timelock.updated (k.update? r) := by
  unfold settled Closing.update?
  split
  · exact carrying_timelock (h.extended k.actions)
  · rfl

theorem settled_alike : (e.settled k r).dispatcher.Alike e.dispatcher := by
  unfold settled
  split
  · exact execute_alike ..
  · exact .refl e.dispatcher

theorem settled_calls :
    (e.settled k r).dispatcher.calls = e.dispatcher.calls ++ k.calls e.identity r := by
  unfold settled Closing.calls
  split
  · exact execute_calls ..
  · exact (List.append_nil _).symm

theorem settled_payments : (e.settled k r).dispatcher.payments = e.dispatcher.payments ++
    if (e.settledRecord k r).status = .completed then (duePayment? r).toList else [] := by
  unfold settled settledRecord
  split
  · exact execute_payments ..
  · exact (List.append_nil _).symm

/-! ## What a closing leaves to another one -/

/-- Nothing has changed that matters to the closing of a pending record by a signer. -/
structure Leaves (e e' : Engine) (id : TxId) (signer? : Option Identity) : Prop where
  pending : ∀ r, e.ledger.HasPending id r → e'.ledger.HasPending id r
  nonce : ∀ signer, signer? = some signer → e'.nonce signer = e.nonce signer
  chain : e'.verifier.chainId = e.verifier.chainId
  contract : e'.verifier.identity = e.verifier.identity
  access : e'.access = e.access
  catalog : e'.catalog = e.catalog
  clock : e'.clock = e.clock
  window : ∀ operation, e'.timelock.cancelWindow operation = e.timelock.cancelWindow operation

/-- A payload is still good where nothing has changed that matters. -/
theorem MayClose.of_leaves {step : MetaStep} {tx : MetaTx.Signed} {relay : MetaTx.Relay}
    (h : e.MayClose step tx relay r)
    (leaves : e.Leaves e' tx.snapshot.txId (some tx.terms.signer)) :
    e'.MayClose step tx relay r where
  action := h.action
  authentic :=
    { chain := h.authentic.chain.trans leaves.chain.symm
      contract := h.authentic.contract.trans leaves.contract.symm
      digest := h.authentic.digest
      callData := h.authentic.callData
      signature := h.authentic.signature
      deadline := leaves.clock ▸ h.authentic.deadline
      gasPrice := h.authentic.gasPrice }
  nonce := h.nonce.trans (leaves.nonce _ rfl).symm
  signer := leaves.access ▸ h.signer
  relayer := leaves.access ▸ h.relayer
  pending := leaves.pending r h.pending
  snapshot := h.snapshot
  served := by
    unfold Serves
    rw [leaves.access]
    exact h.served
  onPath := leaves.catalog ▸ h.onPath

theorem MaySettle.of_leaves (h : e.MaySettle c k r) (leaves : e.Leaves e' k.id k.signer?) :
    e'.MaySettle c k r := by
  have fits {signer : Identity} (hs : k.signer? = some signer) (h : e.HasNonce signer) :
      e'.HasNonce signer := by
    rw [HasNonce, leaves.nonce signer hs]
    exact h
  cases h with
  | approve may =>
    exact .approve ⟨leaves.pending r may.pending, leaves.access ▸ may.granted,
      leaves.catalog ▸ may.onPath, leaves.clock ▸ may.released⟩
  | cancel may =>
    exact .cancel ⟨leaves.pending r may.pending, leaves.access ▸ may.granted,
      leaves.catalog ▸ may.onPath,
      fun window => leaves.clock ▸ may.window ((leaves.window _).symm.trans window)⟩
  | approveSigned may nonce => exact .approveSigned (may.of_leaves leaves) (fits rfl nonce)
  | cancelSigned may nonce => exact .cancelSigned (may.of_leaves leaves) (fits rfl nonce)

theorem settled_leaves (h : r.Governed e.identity) (apart : k.Independent l r s) :
    e.Leaves (e.settled k r) l.id l.signer? := by
  obtain ⟨-, access, catalog, clock⟩ := settled_same (e := e) (k := k) (r := r)
  obtain ⟨chain, contract⟩ := MetaTx.Verifier.spent_place e.verifier k.signer?
  refine ⟨?pending, ?nonce, ?chain, ?contract, access, catalog, clock, ?window⟩
  case pending =>
    intro q hq
    refine ⟨?_, hq.pending⟩
    rw [settled_ledger, Ledger.get?_close, if_neg (Ne.symm apart.ids)]
    exact hq.stored
  case nonce =>
    intro signer hs
    unfold Engine.nonce
    rw [settled_verifier]
    exact MetaTx.Verifier.nonce_spent fun hk => apart.signers signer hk hs
  case chain => rw [settled_verifier, chain]
  case contract => rw [settled_verifier, contract]
  case window =>
    intro operation
    rw [settled_timelock h, TimeLockPolicy.cancelWindow_updated]

/-- After an independent closing, another one ends as it would have before. -/
theorem settledRecord_settled (h : r.Governed e.identity) (h' : s.Governed e.identity)
    (apart : k.Independent l r s) : (e.settled k r).settledRecord l s = e.settledRecord l s := by
  unfold settledRecord
  split
  · next approves =>
    have outcome : ((e.settled k r).carrying (s.extended l.actions)).2.2 =
        (e.carrying (s.extended l.actions)).2.2 := by
      refine carrying_outcome_congr (h'.extended l.actions) settled_same.1 settled_alike ?_
      intro v hv
      rw [settled_timelock h]
      have hl : l.update? s = some v := (if_pos approves).trans hv
      exact TimeLockPolicy.periodFor_updated fun u hu => apart.updates u v hu hl
    unfold executed
    rw [outcome]
  · rfl

/-! ## Both orders -/

/-- Two engines, reached from `e` by two commands in different orders through `a` and `b`, agree in
everything but the order in which the dispatcher and the sink have been told. -/
structure Commuted (e a b : Engine) (told told' : List Event) (ab ba : Engine) : Prop where
  identity : ab.identity = ba.identity
  ledger : ab.ledger = ba.ledger
  verifier : ab.verifier = ba.verifier
  access : ab.access = ba.access
  catalog : ab.catalog = ba.catalog
  timelock : ab.timelock = ba.timelock
  clock : ab.clock = ba.clock
  alike : ab.dispatcher.Alike ba.dispatcher
  calls : ∃ made made', a.dispatcher.calls = e.dispatcher.calls ++ made ∧
    b.dispatcher.calls = e.dispatcher.calls ++ made' ∧
    ab.dispatcher.calls = e.dispatcher.calls ++ made ++ made' ∧
    ba.dispatcher.calls = e.dispatcher.calls ++ made' ++ made
  payments : ∃ paid paid', a.dispatcher.payments = e.dispatcher.payments ++ paid ∧
    b.dispatcher.payments = e.dispatcher.payments ++ paid' ∧
    ab.dispatcher.payments = e.dispatcher.payments ++ paid ++ paid' ∧
    ba.dispatcher.payments = e.dispatcher.payments ++ paid' ++ paid
  sinks : a.sink = e.sink.tell told ∧ b.sink = e.sink.tell told' ∧
    ab.sink = e.sink.tell (told ++ told') ∧ ba.sink = e.sink.tell (told' ++ told)

theorem eventsAt_of_maySettle (h : e.MaySettle c k r) : e.eventsAt c =
    (c.kinds (e.settledRecord k r)).map ((e.settledRecord k r).event e.clock) :=
  eventsAt_of_shown h.accepts rfl

theorem settled_sink (hn : e.ledger.Numbered) (h : e.MaySettle c k r) :
    (e.settled k r).sink = e.sink.tell (e.eventsAt c) := by
  have told := sink_step hn h.asked.2.2.2
  rw [h.step_eq] at told
  exact told

/-- What a closing does after an independent one: it may go ahead, ends and tells as before. -/
structure Follows (e e' : Engine) (d : Command) (l : Closing) (s : Record) : Prop where
  may : e'.MaySettle d l s
  record : e'.settledRecord l s = e.settledRecord l s
  events : e'.eventsAt d = e.eventsAt d

theorem follows_settled (h : e.MaySettle d l s) (governed : r.Governed e.identity)
    (governed' : s.Governed e.identity) (apart : k.Independent l r s) :
    e.Follows (e.settled k r) d l s := by
  have may := h.of_leaves (settled_leaves governed apart)
  have record := settledRecord_settled governed governed' apart
  refine ⟨may, record, ?_⟩
  rw [eventsAt_of_maySettle may, eventsAt_of_maySettle h, record, settled_same.2.2.2]

theorem tell_append {sink : EventSink} {evs evs' : List Event} :
    (sink.tell evs).tell evs' = sink.tell (evs ++ evs') :=
  List.foldl_append.symm

theorem settled_commuted (hn : e.ledger.Numbered) (g : e.Governs) (h : e.MaySettle c k r)
    (h' : e.MaySettle d l s) (apart : k.Independent l r s) :
    Commuted e (e.settled k r) (e.settled l s) (e.eventsAt c) (e.eventsAt d)
      ((e.settled k r).settled l s) ((e.settled l s).settled k r) := by
  have governed := g.pending h.pending
  have governed' := g.pending h'.pending
  obtain ⟨may', record', events'⟩ := follows_settled h' governed governed' apart
  obtain ⟨may, record, events⟩ := follows_settled h governed' governed apart.symm
  have place (k r) : (e.settled k r).identity = e.identity := settled_same.1
  have numbered {c : Command} {k : Closing} {r : Record} (h : e.MaySettle c k r) :
      (e.settled k r).ledger.Numbered := h.accepts.numbered hn
  constructor
  case identity => simp only [settled_same]
  case access => simp only [settled_same]
  case catalog => simp only [settled_same]
  case clock => simp only [settled_same]
  case ledger =>
    rw [settled_ledger, settled_ledger, settled_ledger, settled_ledger, record, record']
    exact Ledger.close_comm apart.ids
  case verifier =>
    simp only [settled_verifier]
    exact MetaTx.Verifier.spent_comm apart.signers
  case timelock =>
    rw [settled_timelock (place k r ▸ governed'), settled_timelock governed,
      settled_timelock (place l s ▸ governed), settled_timelock governed']
    exact TimeLockPolicy.updated_comm apart.updates
  case alike =>
    exact (settled_alike.trans settled_alike).trans (settled_alike.trans settled_alike).symm
  case calls =>
    refine ⟨k.calls e.identity r, l.calls e.identity s, settled_calls, settled_calls, ?_, ?_⟩
    · rw [settled_calls, settled_calls, place]
    · rw [settled_calls, settled_calls, place]
  case payments =>
    refine ⟨_, _, settled_payments, settled_payments, ?_, ?_⟩
    · rw [settled_payments, settled_payments, record']
    · rw [settled_payments, settled_payments, record]
  case sinks =>
    refine ⟨settled_sink hn h, settled_sink hn h', ?_, ?_⟩
    · rw [settled_sink (numbered h) may', settled_sink hn h, events', tell_append]
    · rw [settled_sink (numbered h') may, settled_sink hn h', events, tell_append]

/-- In every reached engine, let two commands that approve or cancel different records both be
accepted, by different signers if both are signed, and not both as updates of one period. Then each is
accepted after the other, with the same record, and the two orders lead to the same engine up to the
order of what the dispatcher and the sink are told. -/
theorem closings_commute {config : EngineConfig} {clock : UInt64} {sink : EventSink}
    {dispatcher : Dispatcher} (created : create config clock sink dispatcher = .ok e₀)
    (reached : Reaches e₀ e) (closing : c.isClosing = true) (closing' : d.isClosing = true)
    (different : c.subject? ≠ d.subject?) (first : e.step c = (a, .ok (.closed r)))
    (second : e.step d = (b, .ok (.closed s)))
    (signers : ∀ tx tx', c.payload? = some tx → d.payload? = some tx' →
      tx.terms.signer ≠ tx'.terms.signer)
    (updates : c.isApproval = true → d.isApproval = true → ∀ u v, r.update? = some u →
      s.update? = some v → u.operation ≠ v.operation) :
    ∃ ab ba, a.step d = (ab, .ok (.closed s)) ∧ b.step c = (ba, .ok (.closed r)) ∧
      Commuted e a b (e.eventsAt c) (e.eventsAt d) ab ba := by
  obtain ⟨cs, rfl⟩ := reaches_iff.mp reached
  have hn := (isNew_of_create created).numbered cs
  have g := governs_run (numbered_of_create created) (governs_of_create created).1 cs
  obtain ⟨k, q, h, rfl, hr⟩ := (step_eq_ok_iff.mp first).maySettle closing
  obtain ⟨l, p, h', rfl, hs⟩ := (step_eq_ok_iff.mp second).maySettle closing'
  cases hr
  cases hs
  obtain ⟨subject, approves, payload, -⟩ := h.asked
  obtain ⟨subject', approves', payload', -⟩ := h'.asked
  have apart : k.Independent l q p := by
    refine ⟨fun hid => different ?_, fun signer hk hl => ?_, fun u v hu hv => ?_⟩
    · rw [subject, subject', hid]
    · obtain ⟨tx, htx, rfl⟩ := Option.map_eq_some_iff.mp (payload.trans hk)
      obtain ⟨tx', htx', same⟩ := Option.map_eq_some_iff.mp (payload'.trans hl)
      exact signers tx tx' htx htx' same.symm
    · obtain ⟨hk, hq⟩ := Closing.update?_eq_some_iff.mp hu
      obtain ⟨hl, hp⟩ := Closing.update?_eq_some_iff.mp hv
      exact updates (approves.trans hk) (approves'.trans hl) u v (settledRecord_update?.trans hq)
        (settledRecord_update?.trans hp)
  obtain ⟨may', record', -⟩ := follows_settled h' (g.pending h.pending) (g.pending h'.pending) apart
  obtain ⟨may, record, -⟩ :=
    follows_settled h (g.pending h'.pending) (g.pending h.pending) apart.symm
  refine ⟨_, _, ?_, ?_, settled_commuted hn g h h' apart⟩
  · rw [may'.step_eq, record']
  · rw [may.step_eq, record]

end Engine

/-!
## A race

The owner's payment is about to be approved by the relayed payload, and a longer period for payments on
the delay track.
-/

namespace Sample

/-- A period is requested besides the payment, and its release has come. -/
def contended : List Command := opening ++ [.requestPeriod owner ⟨pay, 120⟩, .setClock 160]

def signedApproval : Command := .approveSigned payload relay

def delayedApproval : Command := .approve ⟨2⟩ owner

theorem contends : holds contended (fun e =>
    match e.step signedApproval, e.step delayedApproval with
    | (_, .ok (.closed r)), (_, .ok (.closed s)) =>
      decide (r.update? = none ∧ s.update? = some ⟨pay, 120⟩)
    | _, _ => false) = true := by
  decide +kernel

end Sample

/-- Whichever comes first, both are approved, with the same records. -/
theorem Engine.sample_raced : ∃ e₀ a b ab ba r s,
    create Sample.config 100 (.memory []) .empty = .ok e₀ ∧
    let e := e₀.run Sample.contended
    e.step Sample.signedApproval = (a, .ok (.closed r)) ∧
    e.step Sample.delayedApproval = (b, .ok (.closed s)) ∧
    a.step Sample.delayedApproval = (ab, .ok (.closed s)) ∧
    b.step Sample.signedApproval = (ba, .ok (.closed r)) ∧
    Commuted e a b (e.eventsAt Sample.signedApproval) (e.eventsAt Sample.delayedApproval) ab ba := by
  obtain ⟨e₀, created, h⟩ := Sample.exists_of_holds Sample.contends
  split at h
  · next a r b s first second =>
    obtain ⟨none, -⟩ := of_decide_eq_true h
    have reached : Reaches e₀ (e₀.run Sample.contended) := (Reaches.refl e₀).run _
    obtain ⟨ab, ba, after, before, commuted⟩ :=
      closings_commute created reached rfl rfl (by decide) first second
        (fun _ _ _ h => by cases h) (fun _ _ u _ hu => by rw [none] at hu; cases hu)
    exact ⟨e₀, a, b, ab, ba, r, s, created, first, second, after, before, commuted⟩
  · cases h

end Countersign
