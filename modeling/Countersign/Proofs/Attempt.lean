import Countersign.Proofs.Dispatch

/-!
# What is asked for on behalf of a record

Carrying out a record comes to the same in `watched` surroundings, which also list what they are asked
for. `attempts` is that list, in order and with the answers, and `trail_attempts` says what it can be:
a call, and then a payment only if the call has succeeded.
-/

namespace Countersign

/-! ## Attempts -/

/-- Something that is asked for on behalf of a record, with the answer. -/
inductive Attempt where
  | call (call : Call) (answer : Except DispatchError Bytes)
  | payment (id : TxId) (payment : Payment) (answer : Except DispatchError Unit)

namespace Attempt

def txId : Attempt → TxId
  | call c _ => c.txId
  | payment id _ _ => id

def outward? (engine : Identity) : Attempt → Option Call
  | call c _ => if c.target = engine then none else some c
  | payment .. => none

def released? : Attempt → Option (TxId × Payment)
  | payment id p (.ok ()) => some (id, p)
  | _ => none

/-- The call of a record, if it makes one, with an answer. -/
def callOf (r : Record) (answer : Except DispatchError Bytes) : List Attempt :=
  (Call.ofRecord? r).toList.map fun c => call c answer

/-- The payment of a record, if one is due, with an answer. -/
def paymentOf (r : Record) (answer : Except DispatchError Unit) : List Attempt :=
  (duePayment? r).toList.map fun due => payment due.1 due.2 answer

variable {r : Record} {engine : Identity}

theorem txId_of_ofRecord? {c : Call} (h : Call.ofRecord? r = some c) : c.txId = r.id := by
  unfold Call.ofRecord? at h
  obtain ⟨payload, -, rfl⟩ := Option.map_eq_some_iff.mp h
  rfl

theorem target_of_ofRecord? {c : Call} (h : Call.ofRecord? r = some c) :
    c.target = r.request.target := by
  unfold Call.ofRecord? at h
  obtain ⟨payload, -, rfl⟩ := Option.map_eq_some_iff.mp h
  rfl

theorem txId_of_mem_callOf {a : Attempt} {answer : Except DispatchError Bytes}
    (h : a ∈ callOf r answer) : a.txId = r.id := by
  unfold callOf at h
  obtain ⟨c, hc, rfl⟩ := List.mem_map.mp h
  exact txId_of_ofRecord? (Option.mem_toList.mp hc)

theorem duePayment?_eq_some_iff {due : TxId × Payment} :
    duePayment? r = some due ↔ due.1 = r.id ∧ r.payment = some due.2 ∧ due.2.isEmpty = false := by
  obtain ⟨id, p⟩ := due
  simp only [duePayment?, Option.map_eq_some_iff, Option.filter_eq_some_iff, Prod.mk.injEq]
  constructor
  · rintro ⟨q, ⟨hq, he⟩, rfl, rfl⟩
    exact ⟨rfl, hq, by simpa using he⟩
  · rintro ⟨rfl, hp, he⟩
    exact ⟨p, ⟨hp, by simpa using he⟩, rfl, rfl⟩

theorem txId_of_mem_paymentOf {a : Attempt} {answer : Except DispatchError Unit}
    (h : a ∈ paymentOf r answer) : a.txId = r.id := by
  unfold paymentOf at h
  obtain ⟨due, hd, rfl⟩ := List.mem_map.mp h
  exact (duePayment?_eq_some_iff.mp (Option.mem_toList.mp hd)).1

theorem outward?_callOf {answer : Except DispatchError Bytes} :
    (callOf r answer).filterMap (outward? engine) = (outwardCall? engine r).toList := by
  unfold callOf outwardCall?
  cases Call.ofRecord? r with
  | none => rfl
  | some c =>
    by_cases ht : c.target = engine
    · simp [outward?, ht, Option.filter]
    · simp [outward?, ht, Option.filter]

theorem outward?_paymentOf {answer : Except DispatchError Unit} :
    (paymentOf r answer).filterMap (outward? engine) = [] := by
  unfold paymentOf
  cases duePayment? r <;> rfl

theorem released?_callOf {answer : Except DispatchError Bytes} :
    (callOf r answer).filterMap released? = [] := by
  unfold callOf
  cases Call.ofRecord? r <;> rfl

theorem released?_paymentOf_ok :
    (paymentOf r (.ok ())).filterMap released? = (duePayment? r).toList := by
  unfold paymentOf
  cases duePayment? r <;> rfl

theorem released?_paymentOf_error {err : DispatchError} :
    (paymentOf r (.error err)).filterMap released? = [] := by
  unfold paymentOf
  cases duePayment? r <;> rfl

/-- In a call with its answer and then a payment, only the call can stand before a payment. -/
theorem payment_of_split {pre post : List Attempt} {id : TxId} {p : Payment}
    {made : Except DispatchError Bytes} {paid answer : Except DispatchError Unit}
    (split : callOf r made ++ paymentOf r paid = pre ++ payment id p answer :: post) :
    r.payment = some p ∧ pre = callOf r made := by
  unfold paymentOf at split
  unfold callOf at split ⊢
  cases hd : duePayment? r with
  | none =>
    have hm : payment id p answer ∈ (Call.ofRecord? r).toList.map fun c => call c made := by
      rw [hd] at split
      simp only [Option.toList_none, List.map_nil, List.append_nil] at split
      rw [split]
      simp
    obtain ⟨c, -, hc⟩ := List.mem_map.mp hm
    cases hc
  | some due =>
    rw [hd] at split
    have hp : r.payment = some due.2 := (duePayment?_eq_some_iff.mp hd).2.1
    cases hc : Call.ofRecord? r with
    | none =>
      rw [hc] at split
      rcases pre with _ | ⟨a, pre⟩
      · cases split
        exact ⟨hp, rfl⟩
      · simp at split
    | some c =>
      rw [hc] at split
      rcases pre with _ | ⟨a, _ | ⟨b, pre⟩⟩
      · cases split
      · cases split
        exact ⟨hp, rfl⟩
      · simp at split

end Attempt

/-! ## The attempts for one record -/

/-- What may be asked for on behalf of a record that ends with a status: its call, and the payment
that is due if the call has succeeded. -/
inductive Trail (r : Record) : List Attempt → Status → Prop where
  | callFailed {call : Call} (err : DispatchError) (made : Call.ofRecord? r = some call) :
      Trail r [.call call (.error err)] .failed
  | paymentFailed (result : Bytes) (err : DispatchError) :
      Trail r (Attempt.callOf r (.ok result) ++ Attempt.paymentOf r (.error err)) .failed
  | completed (result : Bytes) :
      Trail r (Attempt.callOf r (.ok result) ++ Attempt.paymentOf r (.ok ())) .completed

namespace Trail

variable {r : Record} {as : List Attempt} {status : Status} (h : Trail r as status)

include h

theorem status_eq : status = .completed ∨ status = .failed := by
  cases h with
  | callFailed | paymentFailed => exact .inr rfl
  | completed => exact .inl rfl

theorem txId_eq {a : Attempt} (ha : a ∈ as) : a.txId = r.id := by
  cases h with
  | callFailed err made =>
    rw [List.mem_singleton] at ha
    subst ha
    exact Attempt.txId_of_ofRecord? made
  | paymentFailed | completed =>
    rcases List.mem_append.mp ha with ha | ha
    · exact Attempt.txId_of_mem_callOf ha
    · exact Attempt.txId_of_mem_paymentOf ha

theorem outward_calls (engine : Identity) :
    as.filterMap (Attempt.outward? engine) = (outwardCall? engine r).toList := by
  cases h with
  | @callFailed call err made =>
    have hcall : Attempt.callOf r (.error err) = [.call call (.error err)] := by
      rw [Attempt.callOf, made]
      rfl
    rw [← hcall, Attempt.outward?_callOf]
  | paymentFailed | completed =>
    rw [List.filterMap_append, Attempt.outward?_callOf, Attempt.outward?_paymentOf,
      List.append_nil]

theorem released_payments :
    as.filterMap Attempt.released? =
      if status = .completed then (duePayment? r).toList else [] := by
  cases h with
  | callFailed => rfl
  | paymentFailed =>
    rw [List.filterMap_append, Attempt.released?_callOf, Attempt.released?_paymentOf_error]
    rfl
  | completed =>
    rw [List.filterMap_append, Attempt.released?_callOf, Attempt.released?_paymentOf_ok]
    rfl

/-- Before a payment stands the call, if the record makes one, and it has succeeded. -/
theorem call_before_payment {pre post : List Attempt} {id : TxId} {p : Payment}
    {answer : Except DispatchError Unit} (split : as = pre ++ .payment id p answer :: post) :
    r.payment = some p ∧
      ∀ call, Call.ofRecord? r = some call → ∃ result, Attempt.call call (.ok result) ∈ pre := by
  cases h with
  | @callFailed call err made =>
    have hm : Attempt.payment id p answer ∈ [Attempt.call call (.error err)] := by
      rw [split]
      simp
    rw [List.mem_singleton] at hm
    cases hm
  | paymentFailed result | completed result =>
    obtain ⟨hp, rfl⟩ := Attempt.payment_of_split split
    refine ⟨hp, fun call hc => ⟨result, ?_⟩⟩
    rw [Attempt.callOf, hc]
    exact List.mem_singleton_self _

end Trail

/-! ## Surroundings -/

namespace Surroundings

section

variable {ω : Type} (w : Surroundings ω) (engine : Identity) (s : ω) (r : Record)

/-- The same surroundings, which also list what they are asked for. -/
def watched : Surroundings (ω × List Attempt) where
  engineCall s c := (((w.engineCall s.1 c).1, s.2 ++ [.call c (w.engineCall s.1 c).2]),
    (w.engineCall s.1 c).2)
  dispatch s c := (((w.dispatch s.1 c).1, s.2 ++ [.call c (w.dispatch s.1 c).2]),
    (w.dispatch s.1 c).2)
  pay s id p := (((w.pay s.1 id p).1, s.2 ++ [.payment id p (w.pay s.1 id p).2]),
    (w.pay s.1 id p).2)

/-- What the surroundings are asked for on behalf of a record, in order. -/
def attempts : List Attempt := (w.watched.carryOut engine (s, []) r).1.2

variable {log : List Attempt}

theorem watched_makeCall :
    w.watched.makeCall engine (s, log) r =
      (((w.makeCall engine s r).1, log ++ Attempt.callOf r (w.makeCall engine s r).2),
        (w.makeCall engine s r).2) := by
  unfold makeCall Attempt.callOf
  cases Call.ofRecord? r with
  | none => simp
  | some c =>
    by_cases ht : c.target = engine
    · simp [ht, watched]
    · simp [ht, watched]

theorem watched_releasePayment :
    w.watched.releasePayment (s, log) r =
      (((w.releasePayment s r).1, log ++ Attempt.paymentOf r (w.releasePayment s r).2),
        (w.releasePayment s r).2) := by
  unfold releasePayment Attempt.paymentOf duePayment?
  cases r.payment with
  | none => simp
  | some p =>
    by_cases he : p.isEmpty = true
    · simp [he, Option.filter]
    · simp [he, Option.filter, watched]

/-- Watching changes nothing but the list. -/
theorem watched_carryOut :
    ((w.watched.carryOut engine (s, log) r).1.1, (w.watched.carryOut engine (s, log) r).2) =
      w.carryOut engine s r := by
  unfold carryOut
  rw [watched_makeCall]
  rcases w.makeCall engine s r with ⟨s', err | result⟩
  · rfl
  · simp only [watched_releasePayment]
    rcases w.releasePayment s' r with ⟨s'', err | u⟩ <;> rfl

end

/-- In whatever surroundings, a call is followed by a payment only if it has succeeded. -/
theorem trail_attempts {ω : Type} (w : Surroundings ω) (engine : Identity) (s : ω) (r : Record) :
    Trail r (w.attempts engine s r) (w.carryOut engine s r).2.status := by
  unfold attempts carryOut
  rw [watched_makeCall, List.nil_append]
  rcases hm : w.makeCall engine s r with ⟨s', err | result⟩
  · -- Without a call there is nothing to fail.
    cases hc : Call.ofRecord? r with
    | none =>
      unfold makeCall at hm
      rw [hc] at hm
      cases hm
    | some call =>
      have hcall : Attempt.callOf r (.error err) = [.call call (.error err)] := by
        rw [Attempt.callOf, hc]
        rfl
      show Trail r (Attempt.callOf r (.error err)) .failed
      rw [hcall]
      exact .callFailed err hc
  · simp only [watched_releasePayment]
    rcases w.releasePayment s' r with ⟨s'', err | u⟩
    · exact .paymentFailed result err
    · exact .completed result

end Surroundings

end Countersign
