import Countersign.Proofs.Attempt
import Countersign.Proofs.Submission

/-!
# Effects happen once

`Engine.attempts` lists what an engine asks of its surroundings along a run. For each record the list
has what carrying it out once asks for, if it is completed or failed, and nothing otherwise
(`explained_run`); the dispatcher has received the calls of the list that leave the engine and the
payments that were released. So each record has its call and its payment exactly once
(`effects_exactly_once`).
-/

namespace Countersign

/-- A list of attempts for one record, or for none: those of carrying it out once, or nothing if it is
still pending or has been cancelled. -/
inductive Explains : Option Record → List Attempt → Prop where
  | idle {r? : Option Record} (h : ∀ r, r? = some r → r.status = .pending ∨ r.status = .cancelled) :
      Explains r? []
  | carriedOut {r : Record} {as : List Attempt} (trail : Trail r as r.status) :
      Explains (some r) as

namespace Explains

variable {r : Record} {r? : Option Record} {as : List Attempt}

theorem of_pending (h : r.status = .pending) : Explains (some r) [] :=
  .idle fun q hq => by cases hq; exact .inl h

theorem of_cancelled (h : r.status = .cancelled) : Explains (some r) [] :=
  .idle fun q hq => by cases hq; exact .inr h

theorem txId_eq (h : Explains (some r) as) : ∀ a ∈ as, a.txId = r.id := by
  intro a ha
  cases h with
  | idle => cases ha
  | carriedOut trail => exact trail.txId_eq ha

theorem eq_nil (h : Explains r? as) (idle : ∀ r, r? = some r → r.status = .pending) : as = [] := by
  cases h with
  | idle => rfl
  | carriedOut trail =>
    have hs := trail.status_eq
    rw [idle _ rfl] at hs
    rcases hs with hs | hs <;> cases hs

end Explains

namespace Engine

open Surroundings (ofEngine)

variable {e e' e₀ : Engine} {c : Command} {cs : List Command} {reply : Reply} {id : TxId}
  {r : Record} {log : List Attempt}

/-! ## What a run asks for -/

/-- What carrying out a record asks for. -/
def attemptsFor (e : Engine) (r : Record) : List Attempt :=
  (ofEngine Governance.handleCall).attempts e.identity (e.timelock, e.dispatcher) r

/-- What an accepted command asks for: an approved record has been carried out. -/
def attemptsOf (e : Engine) : Reply → List Attempt
  | .closed r => if r.status = .cancelled then [] else e.attemptsFor r
  | _ => []

def attemptsAt (e : Engine) (c : Command) : List Attempt :=
  match (e.step c).2 with
  | .ok reply => e.attemptsOf reply
  | .error _ => []

/-- What is asked for along a run, in order. -/
def attempts : Engine → List Command → List Attempt
  | _, [] => []
  | e, c :: cs => e.attemptsAt c ++ (e.step c).1.attempts cs

/-! ## One step -/

theorem trail_executed (e : Engine) (r : Record) (message : Option Digest) :
    Trail (e.executed r message) (e.attemptsFor (e.executed r message))
      (e.executed r message).status :=
  Surroundings.trail_attempts (ofEngine Governance.handleCall) e.identity
    (e.timelock, e.dispatcher) (e.executed r message)

/-- Closing a record changes nothing of what it asks for, so the attempts are those of the record that
is carried out. -/
theorem attemptsFor_executed (e : Engine) (r : Record) (message : Option Digest) :
    e.attemptsFor (e.executed r message) = e.attemptsFor r := rfl

theorem attemptsOf_executed (e : Engine) (r : Record) (message : Option Digest) :
    e.attemptsOf (.closed (e.executed r message)) = e.attemptsFor r := by
  have hs : (e.executed r message).status ≠ .cancelled := by
    rcases executed_status e r message with h | h <;> rw [h] <;> decide
  rw [attemptsOf, if_neg hs, attemptsFor_executed]

theorem explains_executed (e : Engine) (r : Record) (message : Option Digest) :
    Explains (some (e.executed r message)) (e.attemptsOf (.closed (e.executed r message))) := by
  rw [attemptsOf_executed, ← attemptsFor_executed e r message]
  exact .carriedOut (trail_executed e r message)

/-- Nothing has been asked for a record that is free or pending. -/
def Idle (e : Engine) (id : TxId) : Prop :=
  ∀ r, e.ledger.records.get? id = some r → r.status = .pending

theorem idle_of_pending (h : e.ledger.HasPending id r) : e.Idle id := by
  intro r' hr'
  rw [h.stored] at hr'
  cases hr'
  exact h.pending

theorem idle_of_room (h : e.ledger.HasRoom) : e.Idle e.ledger.nextId := by
  intro r' hr'
  rw [h.free] at hr'
  cases hr'

/-- An accepted command leaves the records alone and asks for nothing, or it stores one record that was
free or pending before and asks for what explains it. -/
theorem Accepts.explained (h : e.Accepts c e' reply) (hn : e.ledger.Numbered) :
    (e'.ledger.records = e.ledger.records ∧ e.attemptsOf reply = []) ∨
      ∃ id r, (∀ j, e'.ledger.records.get? j = if j = id then some r else e.ledger.records.get? j) ∧
        e.Idle id ∧ r.id = id ∧ Explains (some r) (e.attemptsOf reply) := by
  cases h with
  | request may room =>
    exact .inr ⟨_, _, fun j => Ledger.get?_opening, idle_of_room room, rfl, .of_pending rfl⟩
  | requestPeriod may room =>
    exact .inr ⟨_, _, fun j => Ledger.get?_opening, idle_of_room room, rfl, .of_pending rfl⟩
  | attachPayment may =>
    exact .inr ⟨_, _, fun j => Ledger.get?_put, idle_of_pending may.pending,
      (hn _ _ may.pending.stored).1, .of_pending may.pending.pending⟩
  | approve may =>
    rw [approved_ledger]
    exact .inr ⟨_, _, fun j => Ledger.get?_close, idle_of_pending may.pending,
      (hn _ _ may.pending.stored).1, explains_executed ..⟩
  | cancel may =>
    exact .inr ⟨_, _, fun j => Ledger.get?_close, idle_of_pending may.pending,
      (hn _ _ may.pending.stored).1, .of_cancelled rfl⟩
  | approveSigned may fits =>
    rw [approved_ledger]
    exact .inr ⟨_, _, fun j => Ledger.get?_close, idle_of_pending may.pending,
      (hn _ _ may.pending.stored).1, explains_executed ..⟩
  | cancelSigned may fits =>
    exact .inr ⟨_, _, fun j => Ledger.get?_close, idle_of_pending may.pending,
      (hn _ _ may.pending.stored).1, .of_cancelled rfl⟩
  | requestSigned may fits room =>
    rw [requestedSigned_ledger]
    exact .inr ⟨_, _, fun j => Ledger.get?_close_opening, idle_of_room room, rfl,
      explains_executed ..⟩
  | _ => exact .inl ⟨rfl, rfl⟩

/-- What the dispatcher has received after carrying out a record. -/
theorem carrying_received (e : Engine) (r : Record) (message : Option Digest) :
    (e.carrying r).2.1.calls = e.dispatcher.calls ++
        (e.attemptsOf (.closed (e.executed r message))).filterMap (Attempt.outward? e.identity) ∧
      (e.carrying r).2.1.payments = e.dispatcher.payments ++
        (e.attemptsOf (.closed (e.executed r message))).filterMap Attempt.released? := by
  have trail := trail_executed e r message
  rw [attemptsOf_executed, ← attemptsFor_executed e r message, trail.outward_calls,
    trail.released_payments]
  exact ⟨execute_calls .., execute_payments ..⟩

/-- The dispatcher receives the calls that leave the engine, and the payments that are released. -/
theorem Accepts.received (h : e.Accepts c e' reply) :
    e'.dispatcher.calls = e.dispatcher.calls ++
        (e.attemptsOf reply).filterMap (Attempt.outward? e.identity) ∧
      e'.dispatcher.payments = e.dispatcher.payments ++
        (e.attemptsOf reply).filterMap Attempt.released? := by
  have nothing {d : Dispatcher} (hc : d.calls = e.dispatcher.calls)
      (hp : d.payments = e.dispatcher.payments) :
      d.calls = e.dispatcher.calls ++ ([] : List Attempt).filterMap (Attempt.outward? e.identity) ∧
        d.payments = e.dispatcher.payments ++ ([] : List Attempt).filterMap Attempt.released? := by
    simp [hc, hp]
  cases h with
  | approve may => exact carrying_received e ..
  | approveSigned may fits => exact carrying_received e ..
  | requestSigned may fits room => exact carrying_received e ..
  | setDispatcher setting => cases setting <;> exact nothing rfl rfl
  | _ => exact nothing rfl rfl

/-! ## Whole runs -/

theorem attemptsAt_of_accepts (h : e.Accepts c e' reply) : e.attemptsAt c = e.attemptsOf reply := by
  rw [attemptsAt, h.step_eq]

theorem attemptsAt_of_error {fault : Fault} (h : (e.step c).2 = .error fault) :
    e.attemptsAt c = [] := by
  rw [attemptsAt, h]

theorem received_step (e : Engine) (c : Command) :
    (e.step c).1.dispatcher.calls = e.dispatcher.calls ++
        (e.attemptsAt c).filterMap (Attempt.outward? e.identity) ∧
      (e.step c).1.dispatcher.payments = e.dispatcher.payments ++
        (e.attemptsAt c).filterMap Attempt.released? := by
  rcases accepts_or_rejects e c with ⟨e', reply, h⟩ | ⟨fault, e', h, rejects⟩
  · rw [attemptsAt_of_accepts h, h.step_eq]
    exact h.received
  · obtain ⟨verifier, ledger, rfl⟩ := rejects.eq_update
    rw [attemptsAt_of_error (by rw [h]), h]
    simp

theorem received_run (e : Engine) (cs : List Command) :
    (e.run cs).dispatcher.calls = e.dispatcher.calls ++
        (e.attempts cs).filterMap (Attempt.outward? e.identity) ∧
      (e.run cs).dispatcher.payments = e.dispatcher.payments ++
        (e.attempts cs).filterMap Attempt.released? := by
  induction cs generalizing e with
  | nil => simp [run, attempts]
  | cons c cs ih =>
    obtain ⟨hc, hp⟩ := received_step e c
    obtain ⟨ihc, ihp⟩ := ih (e.step c).1
    rw [(grows_step e c).identity] at ihc
    rw [run_cons, attempts, List.filterMap_append, List.filterMap_append]
    constructor
    · rw [ihc, hc, List.append_assoc]
    · rw [ihp, hp, List.append_assoc]

/-- The attempts for one record among those of a list. -/
def attemptsOn (id : TxId) (log : List Attempt) : List Attempt :=
  log.filter fun a => a.txId = id

theorem attemptsOn_append (id : TxId) (log more : List Attempt) :
    attemptsOn id (log ++ more) = attemptsOn id log ++ attemptsOn id more :=
  List.filter_append ..

/-- A list explains the records of an engine if its attempts for each do. -/
def Explained (e : Engine) (log : List Attempt) : Prop :=
  ∀ id, Explains (e.ledger.records.get? id) (attemptsOn id log)

theorem explained_step (hn : e.ledger.Numbered) (explained : e.Explained log) (c : Command) :
    (e.step c).1.Explained (log ++ e.attemptsAt c) := by
  rcases accepts_or_keeps hn c with ⟨e', reply, h⟩ | ⟨fault, verifier, h⟩
  · rw [attemptsAt_of_accepts h, h.step_eq]
    rcases h.explained hn with ⟨hr, ha⟩ | ⟨j, r, hr, idle, rfl, hx⟩
    · intro id
      rw [ha, List.append_nil]
      show Explains (e'.ledger.records.get? id) _
      rw [hr]
      exact explained id
    · -- The record that is stored had asked for nothing before.
      refine forall_filter_append hr hx.txId_eq (fun before => ?_) explained
      rw [before.eq_nil idle]
      exact hx
  · rw [attemptsAt_of_error (by rw [h]), h, List.append_nil]
    exact explained

theorem explained_run (hn : e.ledger.Numbered) (explained : e.Explained log) (cs : List Command) :
    (e.run cs).Explained (log ++ e.attempts cs) := by
  induction cs generalizing e log with
  | nil =>
    rw [attempts, List.append_nil]
    exact explained
  | cons c cs ih =>
    rw [attempts, ← List.append_assoc]
    exact ih (numbered_step hn c) (explained_step hn explained c)

theorem IsNew.explained (h : e.IsNew) (cs : List Command) : (e.run cs).Explained (e.attempts cs) := by
  have hn : e.ledger.Numbered := h.numbered []
  have nothing : e.Explained [] := by
    intro id
    rw [h.ledger]
    exact .idle fun r hr => by cases hr
  exact explained_run hn nothing cs

/-! ## Exactly once -/

/-- What is received of the attempts for one record is what is received of all with its number. -/
theorem filterMap_attemptsOn {β : Type} {f : Attempt → Option β} {key : β → TxId}
    (hf : ∀ a b, f a = some b → key b = a.txId) (id : TxId) (log : List Attempt) :
    (log.filterMap f).filter (fun b => key b = id) = (attemptsOn id log).filterMap f := by
  induction log with
  | nil => rfl
  | cons a log ih =>
    unfold attemptsOn at ih ⊢
    cases hfa : f a with
    | none =>
      rw [List.filterMap_cons_none hfa, ih, List.filter_cons]
      split
      · rw [List.filterMap_cons_none hfa]
      · rfl
    | some b =>
      have hkey : key b = a.txId := hf a b hfa
      rw [List.filterMap_cons_some hfa, List.filter_cons, List.filter_cons, hkey, ih]
      split
      · rw [List.filterMap_cons_some hfa]
      · rfl

theorem txId_of_outward? {engine : Identity} {a : Attempt} {call : Call}
    (h : a.outward? engine = some call) : call.txId = a.txId := by
  cases a with
  | call c answer =>
    by_cases ht : c.target = engine
    · simp [Attempt.outward?, ht] at h
    · simp only [Attempt.outward?, ht, ↓reduceIte, Option.some.injEq] at h
      rw [← h]
      rfl
  | payment => cases h

theorem txId_of_released? {a : Attempt} {due : TxId × Payment} (h : a.released? = some due) :
    due.1 = a.txId := by
  unfold Attempt.released? at h
  split at h
  · cases h; rfl
  · cases h

/-- The record has been approved, and what it asks for is a call that leaves the engine. -/
def Dispatches (engine : Identity) (r : Record) : Prop :=
  (r.status = .completed ∨ r.status = .failed) ∧ r.request.execution ≠ .none ∧
    r.request.target ≠ engine

/-- The record has been completed, and there was something to pay. -/
def Pays (r : Record) (p : Payment) : Prop :=
  r.status = .completed ∧ r.payment = some p ∧ p.isEmpty = false

/-- Of the calls, exactly one is the record's if it dispatches, and none otherwise. -/
structure CalledOnce (engine : Identity) (r : Record) (calls : List Call) : Prop where
  once : Dispatches engine r →
    ∃ call, Call.ofRecord? r = some call ∧ calls.filter (fun c => c.txId = r.id) = [call]
  never : ¬ Dispatches engine r → calls.filter (fun c => c.txId = r.id) = []

/-- Of the payments, exactly one is the record's if it pays, and none otherwise. -/
structure PaidOnce (r : Record) (payments : List (TxId × Payment)) : Prop where
  once : ∀ p, Pays r p → payments.filter (fun due => due.1 = r.id) = [(r.id, p)]
  never : (¬ ∃ p, Pays r p) → payments.filter (fun due => due.1 = r.id) = []

theorem ofRecord?_eq_none_iff : Call.ofRecord? r = none ↔ r.request.execution = .none := by
  unfold Call.ofRecord?
  rw [Option.map_eq_none_iff]
  cases r.request.execution <;> simp [Execution.payload?]

theorem outwardCall?_eq (engine : Identity) (r : Record) :
    outwardCall? engine r = if r.request.target = engine then none else Call.ofRecord? r := by
  unfold outwardCall?
  cases hc : Call.ofRecord? r with
  | none => simp
  | some call =>
    have ht : call.target = r.request.target := Attempt.target_of_ofRecord? hc
    by_cases he : r.request.target = engine
    · simp [Option.filter, ht, he]
    · simp [Option.filter, ht, he]

theorem calledOnce_of_explains {as : List Attempt} {engine : Identity} {calls : List Call}
    (h : Explains (some r) as)
    (hc : calls.filter (fun c => c.txId = r.id) = as.filterMap (Attempt.outward? engine)) :
    CalledOnce engine r calls := by
  cases h with
  | idle idle =>
    have hs := idle r rfl
    refine ⟨fun hd => ?_, fun _ => hc⟩
    rcases hs with hs | hs <;> rcases hd.1 with hd | hd <;> rw [hs] at hd <;> cases hd
  | carriedOut trail =>
    rw [trail.outward_calls] at hc
    constructor
    · rintro ⟨-, hx, ht⟩
      cases hcall : Call.ofRecord? r with
      | none => exact absurd (ofRecord?_eq_none_iff.mp hcall) hx
      | some call =>
        rw [outwardCall?_eq, if_neg ht, hcall] at hc
        exact ⟨call, rfl, hc⟩
    · intro hd
      rw [hc, outwardCall?_eq]
      split
      · rfl
      · next ht =>
        cases hcall : Call.ofRecord? r with
        | none => rfl
        | some call =>
          have hx : r.request.execution ≠ .none := by
            intro hx
            rw [ofRecord?_eq_none_iff.mpr hx] at hcall
            cases hcall
          exact absurd ⟨trail.status_eq, hx, ht⟩ hd

theorem duePayment?_eq_none_of_not (h : ¬ ∃ p, r.payment = some p ∧ p.isEmpty = false) :
    duePayment? r = none := by
  cases hd : duePayment? r with
  | none => rfl
  | some due =>
    obtain ⟨-, hp, he⟩ := Attempt.duePayment?_eq_some_iff.mp hd
    exact absurd ⟨due.2, hp, he⟩ h

theorem paidOnce_of_explains {as : List Attempt} {payments : List (TxId × Payment)}
    (h : Explains (some r) as)
    (hp : payments.filter (fun due => due.1 = r.id) = as.filterMap Attempt.released?) :
    PaidOnce r payments := by
  cases h with
  | idle idle =>
    have hs := idle r rfl
    refine ⟨fun p hd => ?_, fun _ => hp⟩
    have hd := hd.1
    rcases hs with hs | hs <;> rw [hs] at hd <;> cases hd
  | carriedOut trail =>
    rw [trail.released_payments] at hp
    constructor
    · rintro p ⟨hs, hpay, he⟩
      have hd : duePayment? r = some (r.id, p) :=
        Attempt.duePayment?_eq_some_iff.mpr ⟨rfl, hpay, he⟩
      rw [hp, if_pos hs, hd]
      rfl
    · intro hno
      rw [hp]
      split
      · next hs =>
        have hd : duePayment? r = none :=
          duePayment?_eq_none_of_not fun ⟨p, hpay⟩ => hno ⟨p, hs, hpay⟩
        rw [hd]
        rfl
      · rfl

/-- Something is asked for only on behalf of a record. -/
theorem Explained.stored (h : e.Explained log) {a : Attempt} (ha : a ∈ log) :
    ∃ r, e.ledger.records.get? a.txId = some r := by
  have hx := h a.txId
  cases hr : e.ledger.records.get? a.txId with
  | none =>
    rw [hr] at hx
    have hnil := hx.eq_nil fun r hr => by cases hr
    have hm : a ∈ attemptsOn a.txId log := List.mem_filter.mpr ⟨ha, decide_eq_true rfl⟩
    rw [hnil] at hm
    cases hm
  | some r => exact ⟨r, rfl⟩

/-- Before each payment that is asked for stands the call of its record, if that makes one, and it has
succeeded. -/
def PaysAfterCall (e : Engine) (log : List Attempt) : Prop :=
  ∀ pre id p answer post, log = pre ++ Attempt.payment id p answer :: post →
    ∃ r, e.ledger.records.get? id = some r ∧ r.payment = some p ∧
      ∀ call, Call.ofRecord? r = some call → ∃ result, Attempt.call call (.ok result) ∈ pre

theorem Explained.paysAfterCall (h : e.Explained log) : e.PaysAfterCall log := by
  rintro pre id p answer post rfl
  have hx := h id
  have split : attemptsOn id (pre ++ .payment id p answer :: post) =
      attemptsOn id pre ++ .payment id p answer :: attemptsOn id post := by
    rw [attemptsOn_append]
    congr 1
    exact List.filter_cons_of_pos (decide_eq_true rfl)
  rw [split] at hx
  cases hr : e.ledger.records.get? id with
  | none =>
    rw [hr] at hx
    have := hx.eq_nil fun r hr => by cases hr
    simp at this
  | some r =>
    rw [hr] at hx
    generalize hl : attemptsOn id pre ++ .payment id p answer :: attemptsOn id post = as at hx
    cases hx with
    | idle => simp at hl
    | carriedOut trail =>
      obtain ⟨hp, hcall⟩ := trail.call_before_payment hl.symm
      refine ⟨r, rfl, hp, fun call hc => ?_⟩
      obtain ⟨result, hm⟩ := hcall call hc
      exact ⟨result, (List.mem_filter.mp hm).1⟩

/-- In every run of a new engine, whatever its dispatcher is set to in between, the dispatcher receives
the calls and the payments of the records, each exactly once, and nothing else; and no payment is asked
for before the record's call has succeeded. -/
theorem effects_exactly_once {config : EngineConfig} {clock : UInt64} {sink : EventSink}
    {dispatcher : Dispatcher} (created : create config clock sink dispatcher = .ok e₀)
    (cs : List Command) :
    let e := e₀.run cs
    let calls := (e₀.attempts cs).filterMap (Attempt.outward? e.identity)
    let payments := (e₀.attempts cs).filterMap Attempt.released?
    e.dispatcher.calls = dispatcher.calls ++ calls ∧
    e.dispatcher.payments = dispatcher.payments ++ payments ∧
    (∀ id r, e.ledger.records.get? id = some r →
      r.id = id ∧ CalledOnce e.identity r calls ∧ PaidOnce r payments) ∧
    (∀ call ∈ calls, ∃ r, e.ledger.records.get? call.txId = some r) ∧
    (∀ due ∈ payments, ∃ r, e.ledger.records.get? due.1 = some r) ∧
    e.PaysAfterCall (e₀.attempts cs) := by
  intro e calls payments
  have hnew := isNew_of_create created
  have explained : e.Explained (e₀.attempts cs) := hnew.explained cs
  have hcalls (id : TxId) : calls.filter (fun c => c.txId = id) =
      (attemptsOn id (e₀.attempts cs)).filterMap (Attempt.outward? e.identity) :=
    filterMap_attemptsOn (fun _ _ h => txId_of_outward? h) id _
  have hpayments (id : TxId) : payments.filter (fun due => due.1 = id) =
      (attemptsOn id (e₀.attempts cs)).filterMap Attempt.released? :=
    filterMap_attemptsOn (fun _ _ h => txId_of_released? h) id _
  have stored (a : Attempt) (ha : a ∈ e₀.attempts cs) :
      ∃ r, e.ledger.records.get? a.txId = some r := explained.stored ha
  obtain ⟨hc, hp⟩ := received_run e₀ cs
  rw [← (grows_run e₀ cs).identity] at hc
  rw [(created_of_create created).dispatcher] at hc hp
  refine ⟨hc, hp, ?_, ?_, ?_, explained.paysAfterCall⟩
  · intro id r hr
    have hid : r.id = id := (hnew.numbered cs id r hr).1
    have hx := explained id
    rw [hr] at hx
    subst hid
    exact ⟨rfl, calledOnce_of_explains hx (hcalls r.id), paidOnce_of_explains hx (hpayments r.id)⟩
  · intro call hm
    obtain ⟨a, ha, hcall⟩ := List.mem_filterMap.mp hm
    rw [txId_of_outward? hcall]
    exact stored a ha
  · intro due hm
    obtain ⟨a, ha, hdue⟩ := List.mem_filterMap.mp hm
    rw [txId_of_released? hdue]
    exact stored a ha

end Engine

/-!
## A delayed run

Two calls are requested, each with a payment. The second is approved while payments fail, the first
when they are made again.
-/

namespace Sample

def callRequest : Request := { request with execution := .raw [1, 2, 3] }

def otherTxId : TxId := ⟨2⟩

def requests : List Command :=
  declarations ++
    [.request function.selector callRequest, .attachPayment txId owner payment,
      .request function.selector callRequest, .attachPayment otherTxId owner otherPayment]

def approvals : List Command :=
  [.setClock 160, .setDispatcher (.failPayments true), .approve otherTxId owner,
    .setDispatcher (.failPayments false), .approve txId owner]

def delayed : List Command := requests ++ approvals

theorem delayed_closes : holds delayed (fun e =>
    match e.ledger.records.get? txId, e.ledger.records.get? otherTxId with
    | some r, some r' => decide (r.status = .completed ∧ r'.status = .failed ∧
        r.payment = some payment ∧ r.request = callRequest ∧ r'.request = callRequest ∧
        callRequest.target ≠ e.identity)
    | _, _ => false) = true := by
  decide +kernel

theorem exists_delayed : ∃ e r r', Engine.create config 100 (.memory []) .empty = .ok e ∧
    (e.run delayed).ledger.records.get? txId = some r ∧
    (e.run delayed).ledger.records.get? otherTxId = some r' ∧
    r.status = .completed ∧ r'.status = .failed ∧ r.payment = some payment ∧
    r.request = callRequest ∧ r'.request = callRequest ∧
    callRequest.target ≠ (e.run delayed).identity := by
  obtain ⟨e, created, h⟩ := exists_of_holds delayed_closes
  split at h
  · next r r' hr hr' => exact ⟨e, r, r', created, hr, hr', of_decide_eq_true h⟩
  · cases h

end Sample

/-- The record that was completed is called for and paid, the one that failed only called for. -/
theorem Engine.sample_paid_once : ∃ e₀ r r',
    create Sample.config 100 (.memory []) .empty = .ok e₀ ∧
    let e := e₀.run Sample.delayed
    e.ledger.records.get? Sample.txId = some r ∧ r.status = .completed ∧
    e.ledger.records.get? Sample.otherTxId = some r' ∧ r'.status = .failed ∧
    (∃ call, Call.ofRecord? r = some call ∧
      e.dispatcher.calls.filter (fun c => c.txId = r.id) = [call]) ∧
    e.dispatcher.payments.filter (fun due => due.1 = r.id) = [(r.id, Sample.payment)] ∧
    (∃ call, Call.ofRecord? r' = some call ∧
      e.dispatcher.calls.filter (fun c => c.txId = r'.id) = [call]) ∧
    e.dispatcher.payments.filter (fun due => due.1 = r'.id) = [] := by
  obtain ⟨e₀, r, r', created, hr, hr', completed, failed, paid, hq, hq', outward⟩ :=
    Sample.exists_delayed
  obtain ⟨hcalls, hpayments, each, -, -, -⟩ := effects_exactly_once created Sample.delayed
  obtain ⟨-, called, due⟩ := each _ _ hr
  obtain ⟨-, called', due'⟩ := each _ _ hr'
  have dispatches : Dispatches (e₀.run Sample.delayed).identity r :=
    ⟨.inl completed, by rw [hq]; exact Execution.noConfusion, by rw [hq]; exact outward⟩
  have dispatches' : Dispatches (e₀.run Sample.delayed).identity r' :=
    ⟨.inr failed, by rw [hq']; exact Execution.noConfusion, by rw [hq']; exact outward⟩
  refine ⟨e₀, r, r', created, hr, completed, hr', failed, ?_⟩
  rw [hcalls, hpayments]
  refine ⟨called.once dispatches, due.once _ ⟨completed, paid, by decide⟩,
    called'.once dispatches', due'.never ?_⟩
  rintro ⟨p, hs, -⟩
  rw [failed] at hs
  cases hs

end Countersign
