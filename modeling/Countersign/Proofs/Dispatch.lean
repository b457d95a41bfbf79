import Countersign.Dispatch

/-!
# What carrying out a record does

A record fails by its call, fails by its payment, or is completed, in whatever surroundings
(`Surroundings.carryOut_cases`). In those of an engine `outwardCall?` is the call that leaves it and
`duePayment?` the payment that is due; `execute_calls` and `execute_payments` say what the dispatcher
has received afterwards, and `execute_outcome_congr` what the outcome depends on.
-/

namespace Countersign

/-- The call of a record that does not target the engine. -/
def outwardCall? (engine : Identity) (r : Record) : Option Call :=
  (Call.ofRecord? r).filter fun call => call.target ≠ engine

/-- The payment of a record, unless it is empty. -/
def duePayment? (r : Record) : Option (TxId × Payment) :=
  (r.payment.filter fun p => !p.isEmpty).map fun p => (r.id, p)

/-- Two dispatchers answer alike, whatever each has received. -/
structure Dispatcher.Alike (d d' : Dispatcher) : Prop where
  results : d.results = d'.results
  failing : d.failing = d'.failing
  failsPayments : d.failsPayments = d'.failsPayments

theorem Dispatcher.Alike.refl (d : Dispatcher) : d.Alike d := ⟨rfl, rfl, rfl⟩

theorem Dispatcher.Alike.trans {d d' d'' : Dispatcher} (h : d.Alike d') (h' : d'.Alike d'') :
    d.Alike d'' :=
  ⟨h.results.trans h'.results, h.failing.trans h'.failing, h.failsPayments.trans h'.failsPayments⟩

theorem Dispatcher.Alike.symm {d d' : Dispatcher} (h : d.Alike d') : d'.Alike d :=
  ⟨h.results.symm, h.failing.symm, h.failsPayments.symm⟩

/-! ## In any surroundings -/

namespace Surroundings

section

variable {ω : Type} (w : Surroundings ω) (engine : Identity) (s : ω) (r : Record)

/-- A record fails by its call, fails by its payment, or is completed. -/
theorem carryOut_cases :
    (∃ s' err, w.makeCall engine s r = (s', .error err) ∧
      w.carryOut engine s r = (s', .failed err)) ∨
    ∃ s' result, w.makeCall engine s r = (s', .ok result) ∧
      ((∃ s'' err, w.releasePayment s' r = (s'', .error err) ∧
        w.carryOut engine s r = (s'', .failed err)) ∨
      ∃ s'', w.releasePayment s' r = (s'', .ok ()) ∧
        w.carryOut engine s r = (s'', .completed result)) := by
  unfold carryOut
  rcases hm : w.makeCall engine s r with ⟨s', err | result⟩
  · exact .inl ⟨s', err, rfl, rfl⟩
  · refine .inr ⟨s', result, rfl, ?_⟩
    rcases hp : w.releasePayment s' r with ⟨s'', err | u⟩
    · exact .inl ⟨s'', err, rfl, by simp only [hp]⟩
    · exact .inr ⟨s'', rfl, by simp only [hp]⟩

theorem carryOut_status : (w.carryOut engine s r).2.status = .completed ∨
    (w.carryOut engine s r).2.status = .failed := by
  rcases w.carryOut_cases engine s r with ⟨_, _, _, h⟩ | ⟨_, _, _, ⟨_, _, _, h⟩ | ⟨_, _, h⟩⟩
  · exact .inr (by rw [h]; rfl)
  · exact .inr (by rw [h]; rfl)
  · exact .inl (by rw [h]; rfl)

theorem carryOut_failed_iff : (w.carryOut engine s r).2.status = .failed ↔
    ∃ err, (w.carryOut engine s r).2.error = some err := by
  rcases w.carryOut_cases engine s r with ⟨_, err, _, h⟩ | ⟨_, _, _, ⟨_, err, _, h⟩ | ⟨_, _, h⟩⟩
  · simp [h, Outcome.failed]
  · simp [h, Outcome.failed]
  · simp [h, Outcome.completed]

theorem carryOut_outcome : (w.carryOut engine s r).2 =
    match (w.makeCall engine s r).2 with
    | .error err => .failed err
    | .ok result =>
      match (w.releasePayment (w.makeCall engine s r).1 r).2 with
      | .error err => .failed err
      | .ok () => .completed result := by
  rcases w.carryOut_cases engine s r with ⟨_, _, hm, h⟩ | ⟨_, _, hm, ⟨_, _, hp, h⟩ | ⟨_, hp, h⟩⟩
  · simp only [hm, h]
  · simp only [hm, hp, h]
  · simp only [hm, hp, h]

/-- What the call brings about and the payment keeps is so afterwards. -/
theorem carryOut_of_call {P : ω → Prop} (call : P (w.makeCall engine s r).1)
    (payment : ∀ s', P s' → P (w.releasePayment s' r).1) : P (w.carryOut engine s r).1 := by
  rcases w.carryOut_cases engine s r with
    ⟨_, _, hm, h⟩ | ⟨s', _, hm, ⟨_, _, hp, h⟩ | ⟨_, hp, h⟩⟩ <;> rw [hm] at call <;> rw [h]
  · exact call
  all_goals
    have paid := payment s' call
    rw [hp] at paid
    exact paid

variable {r} {r' : Record}

/-- Carrying out looks only at the number, the request and the payment of a record. -/
theorem carryOut_congr (id : r.id = r'.id) (request : r.request = r'.request)
    (payment : r.payment = r'.payment) : w.carryOut engine s r = w.carryOut engine s r' := by
  have call : Call.ofRecord? r = Call.ofRecord? r' := by
    rw [Call.ofRecord?, Call.ofRecord?, id, request]
  simp only [carryOut, makeCall, releasePayment, call, payment, id]

end

/-! ## In those of an engine -/

section OfEngine

variable {σ : Type} (engine : Identity) (handler : EngineHandler σ) (s : σ × Dispatcher) (r : Record)

theorem makeCall_calls : ((ofEngine handler).makeCall engine s r).1.2.calls =
    s.2.calls ++ (outwardCall? engine r).toList := by
  unfold makeCall outwardCall?
  cases Call.ofRecord? r with
  | none => simp
  | some call =>
    by_cases ht : call.target = engine
    · simp [ht, Option.filter, ofEngine]
    · simp [ht, Option.filter, ofEngine, Dispatcher.dispatch]

theorem makeCall_payments :
    ((ofEngine handler).makeCall engine s r).1.2.payments = s.2.payments := by
  unfold makeCall
  cases Call.ofRecord? r with
  | none => rfl
  | some call =>
    by_cases ht : call.target = engine
    · simp [ht, ofEngine]
    · simp [ht, ofEngine, Dispatcher.dispatch]

/-- The handler's state changes only through a call that targets the engine. -/
theorem makeCall_state : ((ofEngine handler).makeCall engine s r).1.1 =
    match Call.ofRecord? r with
    | none => s.1
    | some call => if call.target = engine then (handler s.1 call).1 else s.1 := by
  unfold makeCall
  cases Call.ofRecord? r with
  | none => rfl
  | some call =>
    by_cases ht : call.target = engine
    · simp [ht, ofEngine]
    · simp [ht, ofEngine]

theorem releasePayment_calls :
    ((ofEngine handler).releasePayment s r).1.2.calls = s.2.calls := by
  unfold releasePayment
  split
  · rfl
  · split
    · rfl
    · simp only [ofEngine, Dispatcher.pay]
      split <;> rfl

theorem releasePayment_state : ((ofEngine handler).releasePayment s r).1.1 = s.1 := by
  unfold releasePayment
  split
  · rfl
  · split <;> rfl

theorem makeCall_alike :
    ((ofEngine handler).makeCall engine s r).1.2.Alike s.2 := by
  unfold makeCall
  cases Call.ofRecord? r with
  | none => exact .refl s.2
  | some call =>
    by_cases ht : call.target = engine
    · simp only [ht, ↓reduceIte]
      exact .refl s.2
    · simp only [ht, ↓reduceIte]
      exact ⟨rfl, rfl, rfl⟩

theorem releasePayment_alike :
    ((ofEngine handler).releasePayment s r).1.2.Alike s.2 := by
  unfold releasePayment
  split
  · exact .refl s.2
  · split
    · exact .refl s.2
    · simp only [ofEngine, Dispatcher.pay]
      split
      · exact .refl s.2
      · exact ⟨rfl, rfl, rfl⟩

variable {engine handler s r} {s' : σ × Dispatcher}

theorem releasePayment_error {err : DispatchError}
    (h : (ofEngine handler).releasePayment s r = (s', .error err)) : s' = s := by
  unfold releasePayment at h
  split at h
  · cases h
  · split at h
    · cases h
    · simp only [ofEngine, Dispatcher.pay] at h
      split at h
      · cases h; rfl
      · cases h

theorem releasePayment_ok (h : (ofEngine handler).releasePayment s r = (s', .ok ())) :
    s'.2.payments = s.2.payments ++ (duePayment? r).toList := by
  unfold releasePayment at h
  unfold duePayment?
  split at h
  · next hn => cases h; simp [hn]
  · next p hp =>
    split at h
    · next he => cases h; simp [hp, Option.filter, he]
    · next he =>
      simp only [ofEngine, Dispatcher.pay] at h
      split at h
      · cases h
      · cases h; simp [hp, Option.filter, he]

theorem makeCall_answer_congr (alike : s'.2.Alike s.2)
    (own : ∀ call, Call.ofRecord? r = some call → call.target = engine →
      (handler s'.1 call).2 = (handler s.1 call).2) :
    ((ofEngine handler).makeCall engine s' r).2 = ((ofEngine handler).makeCall engine s r).2 := by
  unfold makeCall
  cases hc : Call.ofRecord? r with
  | none => rfl
  | some call =>
    by_cases ht : call.target = engine
    · simp only [ht, ↓reduceIte]
      exact own call hc ht
    · simp only [ht, ↓reduceIte, ofEngine, Dispatcher.dispatch, Dispatcher.answer, alike.failing,
        alike.results]

theorem releasePayment_answer_congr (alike : s'.2.Alike s.2) :
    ((ofEngine handler).releasePayment s' r).2 = ((ofEngine handler).releasePayment s r).2 := by
  unfold releasePayment
  split
  · rfl
  · split
    · rfl
    · simp only [ofEngine, Dispatcher.pay, alike.failsPayments]
      split <;> rfl

end OfEngine

end Surroundings

section Execute

open Surroundings

variable {σ : Type} (engine : Identity) (handler : EngineHandler σ) (s : σ) (d : Dispatcher)
  (r : Record)

theorem execute_eq : execute engine handler s d r =
    (((ofEngine handler).carryOut engine (s, d) r).1.1,
      ((ofEngine handler).carryOut engine (s, d) r).1.2,
      ((ofEngine handler).carryOut engine (s, d) r).2) := rfl

theorem execute_status : (execute engine handler s d r).2.2.status = .completed ∨
    (execute engine handler s d r).2.2.status = .failed :=
  carryOut_status ..

theorem execute_status_ne_pending : (execute engine handler s d r).2.2.status ≠ .pending := by
  intro h
  rcases execute_status engine handler s d r with h' | h' <;> rw [h] at h' <;> cases h'

theorem execute_failed_iff : (execute engine handler s d r).2.2.status = .failed ↔
    ∃ err, (execute engine handler s d r).2.2.error = some err :=
  carryOut_failed_iff ..

/-- The dispatcher receives the outward call, whether it succeeds or not. -/
theorem execute_calls :
    (execute engine handler s d r).2.1.calls = d.calls ++ (outwardCall? engine r).toList :=
  carryOut_of_call (P := fun s' => s'.2.calls = d.calls ++ (outwardCall? engine r).toList) _ engine
    (s, d) r (makeCall_calls ..) fun s' h => (releasePayment_calls handler s' r).trans h

/-- The dispatcher receives the payment that is due exactly if the record is completed. -/
theorem execute_payments :
    (execute engine handler s d r).2.1.payments =
      d.payments ++
        if (execute engine handler s d r).2.2.status = .completed then (duePayment? r).toList
        else [] := by
  rw [execute_eq]
  have hc := makeCall_payments engine handler (s, d) r
  rcases (ofEngine handler).carryOut_cases engine (s, d) r with
    ⟨_, _, hm, h⟩ | ⟨_, _, hm, ⟨_, _, hp, h⟩ | ⟨_, hp, h⟩⟩
  · rw [hm] at hc; rw [h]; simpa [Outcome.failed] using hc
  · rw [hm] at hc; rw [h, releasePayment_error hp]; simpa [Outcome.failed] using hc
  · have hr := releasePayment_ok hp
    rw [hm] at hc; rw [h, hr]
    exact congrArg (· ++ (duePayment? r).toList) hc

/-- The state behind the engine's own calls changes only through a call that targets the engine. -/
theorem execute_state :
    (execute engine handler s d r).1 =
      match Call.ofRecord? r with
      | none => s
      | some call => if call.target = engine then (handler s call).1 else s := by
  rw [execute_eq, ← makeCall_state engine handler (s, d) r]
  exact carryOut_of_call (P := fun s' => s'.1 = _) _ engine (s, d) r rfl
    fun s' h => (releasePayment_state handler s' r).trans h

theorem execute_alike : (execute engine handler s d r).2.1.Alike d :=
  carryOut_of_call (P := fun s' => s'.2.Alike d) _ engine (s, d) r (makeCall_alike ..)
    fun s' h => (releasePayment_alike handler s' r).trans h

variable {engine handler s d r} {s' : σ} {d' : Dispatcher} {r' : Record}

theorem execute_congr (id : r.id = r'.id) (request : r.request = r'.request)
    (payment : r.payment = r'.payment) :
    execute engine handler s d r = execute engine handler s d r' := by
  rw [execute_eq, execute_eq, carryOut_congr _ _ _ id request payment]

/-- A record ends in the same way wherever dispatchers answer alike and its call, if it targets the
engine, has the same answer. -/
theorem execute_outcome_congr (alike : d'.Alike d)
    (own : ∀ call, Call.ofRecord? r = some call → call.target = engine →
      (handler s' call).2 = (handler s call).2) :
    (execute engine handler s' d' r).2.2 = (execute engine handler s d r).2.2 := by
  have received : ((ofEngine handler).makeCall engine (s', d') r).1.2.Alike
      ((ofEngine handler).makeCall engine (s, d) r).1.2 :=
    ((makeCall_alike ..).trans alike).trans (makeCall_alike ..).symm
  have call : ((ofEngine handler).makeCall engine (s', d') r).2 =
      ((ofEngine handler).makeCall engine (s, d) r).2 := makeCall_answer_congr alike own
  rw [execute_eq, execute_eq, carryOut_outcome, carryOut_outcome, call,
    releasePayment_answer_congr received]

end Execute

end Countersign
