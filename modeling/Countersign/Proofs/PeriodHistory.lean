import Countersign.Proofs.Effects
import Countersign.Proofs.Governance

/-!
# The history of the periods

`Engine.completed` lists the records that a run completes, in the order in which they are carried out;
`Engine.updates` those of them that set the period of an operation type. The period of an operation
type is the one that the last of them carries, or the configured one, and each of them answers with
the period that the one before it has left (`periods_follow_updates`).
-/

namespace Countersign

open Governance (PeriodUpdate)

/-- The record that an accepted command has completed, if it has completed one. -/
def Reply.completed? : Reply → Option Record
  | closed r => if r.status = .completed then some r else none
  | _ => none

theorem Reply.completed?_eq_some_iff {reply : Reply} {r : Record} :
    reply.completed? = some r ↔ reply = .closed r ∧ r.status = .completed := by
  cases reply with
  | closed q =>
    by_cases hq : q.status = .completed
    · simp only [completed?, hq, ↓reduceIte, Option.some.injEq, closed.injEq]
      exact ⟨fun h => ⟨h, h ▸ hq⟩, And.left⟩
    · simp only [completed?, hq, ↓reduceIte, closed.injEq, reduceCtorEq, false_iff, not_and]
      exact fun h => h ▸ hq
  | _ => simp [completed?]

namespace Engine

variable {e e' e₀ : Engine} {c : Command} {cs : List Command} {reply : Reply} {id : TxId}
  {r : Record} {operation : OperationType}

/-! ## Completed records -/

/-- The record that a step completes, if it completes one. -/
def completedAt (e : Engine) (c : Command) : List Record :=
  match (e.step c).2 with
  | .ok reply => reply.completed?.toList
  | .error _ => []

/-- The records that a run completes, in order. -/
def completed : Engine → List Command → List Record
  | _, [] => []
  | e, c :: cs => e.completedAt c ++ (e.step c).1.completed cs

theorem mem_completedAt : r ∈ e.completedAt c ↔
    (e.step c).2 = .ok (.closed r) ∧ r.status = .completed := by
  unfold completedAt
  cases (e.step c).2 with
  | error => simp
  | ok reply => simp [Reply.completed?_eq_some_iff]

/-- A record that is completed in a step is stored as such, and it was not before. -/
theorem mem_completedAt_iff (hn : e.ledger.Numbered) : r ∈ e.completedAt c ↔
    r.status = .completed ∧ (e.step c).1.ledger.records.get? r.id = some r ∧
      e.ledger.records.get? r.id ≠ some r := by
  rw [mem_completedAt]
  have unfinished (hr : r.status = .completed) : r.status ≠ .pending := by rw [hr]; decide
  rcases accepts_or_keeps hn c with ⟨e', reply, h⟩ | ⟨fault, verifier, h⟩
  · rw [h.step_eq]
    rcases h.closed_cases hn with ⟨none, nothing⟩ | ⟨q, rfl, closes⟩
    · constructor
      · rintro ⟨hr, -⟩
        exact absurd (Except.ok.inj hr) (none r)
      · rintro ⟨hr, after, before⟩
        exact absurd (nothing _ _ after (unfinished hr)) before
    · constructor
      · rintro ⟨hr, hs⟩
        cases hr
        refine ⟨hs, by rw [closes.stored, if_pos rfl], fun before => ?_⟩
        exact closes.closed (closes.before _ before)
      · rintro ⟨hs, after, before⟩
        have after : e'.ledger.records.get? r.id = some r := after
        rw [closes.stored] at after
        split at after
        · cases after
          exact ⟨rfl, hs⟩
        · exact absurd after before
  · rw [h]
    simp

/-- What is closed is still the same after a run. -/
theorem get?_run_of_closed (hn : e.ledger.Numbered) (cs : List Command)
    (stored : e.ledger.records.get? id = some r) (closed : r.status ≠ .pending) :
    (e.run cs).ledger.records.get? id = some r := by
  obtain ⟨r', hr', later⟩ := later_run hn cs stored
  rw [hr', later.closed closed]

/-- The completed records of a run are those that are stored as completed at its end, and were not at
its beginning. -/
theorem mem_completed_iff (hn : e.ledger.Numbered) : r ∈ e.completed cs ↔
    r.status = .completed ∧ (e.run cs).ledger.records.get? r.id = some r ∧
      e.ledger.records.get? r.id ≠ some r := by
  induction cs generalizing e with
  | nil =>
    simp only [completed, List.not_mem_nil, false_iff, not_and]
    exact fun _ stored => not_not_intro stored
  | cons c cs ih =>
    have hn' := numbered_step hn c
    rw [completed, List.mem_append, mem_completedAt_iff hn, ih hn', run_cons]
    constructor
    · rintro (⟨hs, after, before⟩ | ⟨hs, stored, before⟩)
      · exact ⟨hs, get?_run_of_closed hn' cs after (by rw [hs]; decide), before⟩
      · refine ⟨hs, stored, fun h => before ?_⟩
        exact get?_run_of_closed hn [c] h (by rw [hs]; decide)
    · rintro ⟨hs, stored, before⟩
      by_cases after : (e.step c).1.ledger.records.get? r.id = some r
      · exact .inl ⟨hs, after, before⟩
      · exact .inr ⟨hs, stored, after⟩

/-- No record is completed twice. -/
theorem completed_pairwise (hn : e.ledger.Numbered) (cs : List Command) :
    (e.completed cs).Pairwise fun a b => a.id ≠ b.id := by
  induction cs generalizing e with
  | nil => exact .nil
  | cons c cs ih =>
    have hn' := numbered_step hn c
    refine List.pairwise_append.mpr ⟨?_, ih hn', ?_⟩
    · unfold completedAt
      split
      · next reply _ =>
        cases reply.completed? with
        | none => exact .nil
        | some r => exact List.pairwise_singleton ..
      · exact .nil
    · intro a ha b hb hab
      obtain ⟨hs, after, -⟩ := (mem_completedAt_iff hn).mp ha
      obtain ⟨-, stored, before⟩ := (mem_completed_iff hn').mp hb
      -- The first one is still there at the end, so the two are one.
      have still := get?_run_of_closed hn' cs after (by rw [hs]; decide)
      rw [hab, stored] at still
      cases still
      exact before after

/-! ## Updates -/

/-- The update of an operation type's period that a record is, with that period. -/
def updateOf (operation : OperationType) (r : Record) : Option (Record × UInt64) :=
  (r.periodFor? operation).map fun period => (r, period)

/-- The updates of an operation type's period that a run completes, in order, each with its period. -/
def updates (e : Engine) (operation : OperationType) (cs : List Command) : List (Record × UInt64) :=
  (e.completed cs).filterMap (updateOf operation)

/-- The answer of an update that finds a period in force. -/
def answerTo (period : UInt64) : Bytes := leBytes 8 period.toNat

theorem periodFor?_of_update? {u : PeriodUpdate} (h : r.update? = some u) :
    r.periodFor? operation = if operation = u.operation then some u.period else none := by
  rw [Record.periodFor?, h]
  by_cases ho : operation = u.operation
  · simp [ho, Option.filter]
  · simp [ho, Ne.symm ho, Option.filter]

theorem periodFor?_eq_none (h : r.operation ≠ Governance.operation) :
    r.periodFor? operation = none := by
  rw [Record.periodFor?, Record.update?, if_neg h]
  rfl

/-- An accepted command either leaves an operation type its period and completes no update of it, or it
completes one that carries the new period and answers with the old one. -/
theorem Accepts.period (h : e.Accepts c e' reply) (g : e.Governs) (operation : OperationType) :
    e'.timelock.periodFor operation = e.timelock.periodFor operation ∧
      (∀ r, reply.completed? = some r → r.periodFor? operation = none) ∨
    ∃ r, reply.completed? = some r ∧
      r.periodFor? operation = some (e'.timelock.periodFor operation) ∧
      r.result = answerTo (e.timelock.periodFor operation) := by
  cases h.periods g with
  | kept same other =>
    refine .inl ⟨same operation, fun r hr => periodFor?_eq_none fun governs => ?_⟩
    obtain ⟨closed, completed⟩ := Reply.completed?_eq_some_iff.mp hr
    rw [other r closed governs] at completed
    cases completed
  | set final closed governs applies =>
    obtain ⟨u, hu, -, result, policy⟩ := applies.update
    have completed : reply.completed? = some final :=
      Reply.completed?_eq_some_iff.mpr ⟨closed, applies.status⟩
    rw [policy, TimeLockPolicy.periodFor_withPeriod]
    by_cases ho : operation = u.operation
    · refine .inr ⟨final, completed, ?_, ?_⟩
      · rw [periodFor?_of_update? hu, if_pos ho, if_pos ho]
      · rw [result, ho]
        rfl
    · refine .inl ⟨if_neg ho, fun r hr => ?_⟩
      cases completed.symm.trans hr
      rw [periodFor?_of_update? hu, if_neg ho]

theorem completedAt_of_accepts (h : e.Accepts c e' reply) :
    e.completedAt c = reply.completed?.toList := by
  rw [completedAt, h.step_eq]

theorem completedAt_of_error {fault : Fault} (h : (e.step c).2 = .error fault) :
    e.completedAt c = [] := by
  rw [completedAt, h]

theorem period_step (g : e.Governs) (c : Command) (operation : OperationType) :
    (e.step c).1.timelock.periodFor operation = e.timelock.periodFor operation ∧
      (e.completedAt c).filterMap (updateOf operation) = [] ∨
    ∃ r, e.completedAt c = [r] ∧
      r.periodFor? operation = some ((e.step c).1.timelock.periodFor operation) ∧
      r.result = answerTo (e.timelock.periodFor operation) := by
  rcases accepts_or_rejects e c with ⟨e', reply, h⟩ | ⟨fault, e', h, rejects⟩
  · rw [completedAt_of_accepts h, h.step_eq]
    rcases h.period g operation with ⟨same, none⟩ | ⟨r, completed, period, result⟩
    · refine .inl ⟨same, List.filterMap_eq_nil_iff.mpr fun r hr => ?_⟩
      rw [updateOf, none r (Option.mem_toList.mp hr)]
      rfl
    · exact .inr ⟨r, by rw [completed]; rfl, period, result⟩
  · obtain ⟨verifier, ledger, rfl⟩ := rejects.eq_update
    rw [completedAt_of_error (by rw [h]), h]
    exact .inl ⟨rfl, rfl⟩

/-- The last update of a run has set the period, and each answers with what it has found. -/
theorem periods_run (hn : e.ledger.Numbered) (g : e.Governs) (cs : List Command) (operation : OperationType) :
    let periods := (e.updates operation cs).map Prod.snd
    (e.run cs).timelock.periodFor operation =
        periods.getLast?.getD (e.timelock.periodFor operation) ∧
      (e.updates operation cs).map (fun update => update.1.result) =
        (e.timelock.periodFor operation :: periods).dropLast.map answerTo := by
  induction cs generalizing e with
  | nil => exact ⟨rfl, rfl⟩
  | cons c cs ih =>
    obtain ⟨last, answers⟩ := ih (numbered_step hn c) (governs_step hn g c)
    have split : e.updates operation (c :: cs) =
        (e.completedAt c).filterMap (updateOf operation) ++ (e.step c).1.updates operation cs :=
      List.filterMap_append
    rw [split, run_cons]
    rcases period_step g c operation with ⟨same, none⟩ | ⟨r, completed, period, result⟩
    · rw [none, List.nil_append, ← same]
      exact ⟨last, answers⟩
    · have head : (e.completedAt c).filterMap (updateOf operation) =
          [(r, (e.step c).1.timelock.periodFor operation)] := by
        rw [completed, List.filterMap_cons_some (by rw [updateOf, period]; rfl), List.filterMap_nil]
      rw [head, List.singleton_append]
      constructor
      · rw [last, List.map_cons, List.getLast?_cons, Option.getD_some]
      · rw [List.map_cons, answers, result, List.map_cons, List.dropLast_cons_cons, List.map_cons]

/-! ## Records of the governing type -/

/-- A governing record has no part in what the dispatcher receives along a run. -/
theorem governing_undispatched (h : e₀.IsNew) (cs : List Command)
    (governed : r.Governed (e₀.run cs).identity) (governs : r.operation = Governance.operation)
    (stored : (e₀.run cs).ledger.records.get? id = some r) :
    (∀ call ∈ (e₀.attempts cs).filterMap (Attempt.outward? (e₀.run cs).identity),
      call.txId ≠ id) ∧
    ∀ due ∈ (e₀.attempts cs).filterMap Attempt.released?, due.1 ≠ id := by
  have explained := h.explained cs id
  obtain rfl : r.id = id := (h.numbered cs id r stored).1
  rw [stored] at explained
  have uncalled : ¬ Dispatches (e₀.run cs).identity r := fun hd => hd.2.2 (governed.target.mpr governs)
  have unpaid : ¬ ∃ p, Pays r p := by
    rintro ⟨p, -, hp, -⟩
    rw [governed.unpaid governs] at hp
    cases hp
  have calls := (calledOnce_of_explains explained
    (filterMap_attemptsOn (fun _ _ h => txId_of_outward? h) r.id _)).never uncalled
  have payments := (paidOnce_of_explains explained
    (filterMap_attemptsOn (fun _ _ h => txId_of_released? h) r.id _)).never unpaid
  constructor
  · intro call hm hid
    exact List.filter_eq_nil_iff.mp calls call hm (decide_eq_true hid)
  · intro due hm hid
    exact List.filter_eq_nil_iff.mp payments due hm (decide_eq_true hid)

/-! ## The whole history -/

theorem mem_updates {period : UInt64} : (r, period) ∈ e.updates operation cs ↔
    r ∈ e.completed cs ∧ r.periodFor? operation = some period := by
  rw [updates, List.mem_filterMap]
  constructor
  · rintro ⟨q, hq, h⟩
    obtain ⟨p, hp, he⟩ := Option.map_eq_some_iff.mp h
    cases he
    exact ⟨hq, hp⟩
  · rintro ⟨hr, hp⟩
    exact ⟨r, hr, by rw [updateOf, hp]; rfl⟩

theorem updates_pairwise (hn : e.ledger.Numbered) (operation : OperationType) (cs : List Command) :
    (e.updates operation cs).Pairwise fun u v => u.1.id ≠ v.1.id := by
  refine (completed_pairwise hn cs).filterMap _ fun a b hab u hu v hv => ?_
  obtain ⟨_, -, rfl⟩ := Option.map_eq_some_iff.mp hu
  obtain ⟨_, -, rfl⟩ := Option.map_eq_some_iff.mp hv
  exact hab

/-- What an operation type's period has been along a run. -/
structure PeriodHistory (e₀ : Engine) (cs : List Command) (operation : OperationType)
    (configured : UInt64) : Prop where
  /-- The updates are the completed records that name the operation type, each of them once. -/
  stored : ∀ r period, (r, period) ∈ e₀.updates operation cs ↔
    (e₀.run cs).ledger.records.get? r.id = some r ∧ r.status = .completed ∧
      r.periodFor? operation = some period
  distinct : (e₀.updates operation cs).Pairwise fun u v => u.1.id ≠ v.1.id
  /-- The last one counts. -/
  current : (e₀.run cs).timelock.periodFor operation =
    ((e₀.updates operation cs).map Prod.snd).getLast?.getD configured
  /-- Each answers with the period that the one before it has set. -/
  answers : (e₀.updates operation cs).map (fun update => update.1.result) =
    (configured :: (e₀.updates operation cs).map Prod.snd).dropLast.map answerTo
  positive : (e₀.run cs).timelock.periodFor operation ≠ 0
  /-- Only a command that completes another update makes a difference. -/
  changed : ∀ c, ((e₀.run cs).step c).1.timelock.periodFor operation ≠
      (e₀.run cs).timelock.periodFor operation →
    ∃ r, ((e₀.run cs).step c).2 = .ok (.closed r) ∧ r.status = .completed ∧
      r.periodFor? operation = some (((e₀.run cs).step c).1.timelock.periodFor operation)

/-- What becomes of the records of the governing type along a run. -/
structure UpdateHistory (e₀ : Engine) (cs : List Command) : Prop where
  /-- One that is approved, on whichever track, is applied. -/
  approved : ∀ c r, .completed ∈ c.closes → ((e₀.run cs).step c).2 = .ok (.closed r) →
    r.operation = Governance.operation → (e₀.run cs).Applies r ((e₀.run cs).step c).1
  unfailed : ∀ id r, (e₀.run cs).ledger.records.get? id = some r →
    r.operation = Governance.operation → r.status ≠ .failed
  /-- The dispatcher hears of none of them. -/
  calls : ∃ calls, (e₀.run cs).dispatcher.calls = e₀.dispatcher.calls ++ calls ∧
    ∀ id r, (e₀.run cs).ledger.records.get? id = some r → r.operation = Governance.operation →
      ∀ call ∈ calls, call.txId ≠ id
  payments : ∃ payments, (e₀.run cs).dispatcher.payments = e₀.dispatcher.payments ++ payments ∧
    ∀ id r, (e₀.run cs).ledger.records.get? id = some r → r.operation = Governance.operation →
      ∀ due ∈ payments, due.1 ≠ id

theorem Governs.applies (g : e.Governs) (approves : .completed ∈ c.closes)
    (accepted : (e.step c).2 = .ok (.closed r)) (governs : r.operation = Governance.operation) :
    e.Applies r (e.step c).1 := by
  have h : e.Accepts c (e.step c).1 (.closed r) := step_eq_ok_iff.mp (step_eq_of_ok accepted)
  cases h.periods g with
  | kept _ other =>
    -- What closes a record as completed does not call it off.
    have cancels := h.mem_closes
    rw [other r rfl governs] at cancels
    cases c <;> simp [Command.closes] at approves cancels
  | set final closed _ applies =>
    cases closed
    exact applies

theorem IsNew.periodHistory (h : e₀.IsNew) (g : e₀.Governs) (cs : List Command)
    (operation : OperationType) :
    e₀.PeriodHistory cs operation (e₀.timelock.periodFor operation) where
  stored r period := by
    have before : e₀.ledger.records.get? r.id ≠ some r := by
      rw [h.ledger]
      exact (Option.some_ne_none r).symm
    have numbered : e₀.ledger.Numbered := h.numbered []
    rw [mem_updates, mem_completed_iff numbered]
    constructor
    · rintro ⟨⟨status, stored, -⟩, carries⟩
      exact ⟨stored, status, carries⟩
    · rintro ⟨stored, status, carries⟩
      exact ⟨⟨status, stored, before⟩, carries⟩
  distinct := updates_pairwise (h.numbered []) operation cs
  current := (periods_run (h.numbered []) g cs operation).1
  answers := (periods_run (h.numbered []) g cs operation).2
  positive := (governs_run (h.numbered []) g cs).positive operation
  changed c hne := by
    have g' := governs_run (h.numbered []) g cs
    rcases period_step g' c operation with ⟨same, -⟩ | ⟨r, completed, period, -⟩
    · exact absurd same hne
    · have hr : r ∈ (e₀.run cs).completedAt c := completed ▸ List.mem_singleton_self r
      obtain ⟨accepted, status⟩ := mem_completedAt.mp hr
      exact ⟨r, accepted, status, period⟩

theorem IsNew.updateHistory (h : e₀.IsNew) (g : e₀.Governs) (cs : List Command) :
    e₀.UpdateHistory cs := by
  have g' := governs_run (h.numbered []) g cs
  obtain ⟨hc, hp⟩ := received_run e₀ cs
  rw [← (grows_run e₀ cs).identity] at hc
  refine ⟨fun c r => g'.applies, fun id r stored => (g'.records id r stored).unfailed,
    ⟨_, hc, fun id r stored governs => ?_⟩, ⟨_, hp, fun id r stored governs => ?_⟩⟩
  · exact (governing_undispatched h cs (g'.records id r stored) governs stored).1
  · exact (governing_undispatched h cs (g'.records id r stored) governs stored).2

/-- In every run of a new engine the periods are those that the completed updates have set, one after
the other, and an update that is approved is always completed. The updates are read back from just
what they are encoded to. -/
theorem periods_follow_updates {config : EngineConfig} {clock : UInt64} {sink : EventSink}
    {dispatcher : Dispatcher} (created : create config clock sink dispatcher = .ok e₀)
    (cs : List Command) :
    (∀ operation, e₀.PeriodHistory cs operation (config.timelock.periodFor operation)) ∧
      e₀.UpdateHistory cs ∧
      ∀ bs u, PeriodUpdate.decode? bs = some u ↔ bs = u.encode := by
  have hnew := isNew_of_create created
  obtain ⟨governs, configured⟩ := governs_of_create created
  refine ⟨fun operation => ?_, hnew.updateHistory governs cs, fun _ _ =>
    PeriodUpdate.decode?_eq_some_iff⟩
  rw [← configured operation]
  exact hnew.periodHistory governs cs operation

end Engine

/-!
## A run

The owner has the period changed twice. The second change is released after the old period, since the
first is not one of the governing type.
-/

namespace Sample

def adjustments : List Command :=
  [.requestPeriod owner ⟨pay, 120⟩, .setClock 160, .approve txId owner,
    .requestPeriod owner ⟨pay, 90⟩, .setClock 220, .approve otherTxId owner]

theorem adjusts : holds [] (fun e =>
    decide ((e.updates pay adjustments).map Prod.snd = [120, 90])) = true := by
  decide +kernel

end Sample

/-- Each change answers with the period before it, the first with the configured one. -/
theorem Engine.sample_adjusted : ∃ e₀, create Sample.config 100 (.memory []) .empty = .ok e₀ ∧
    (e₀.updates Sample.pay Sample.adjustments).map Prod.snd = [120, 90] ∧
    (e₀.updates Sample.pay Sample.adjustments).map (fun update => update.1.result) =
      [answerTo 60, answerTo 120] ∧
    (e₀.run Sample.adjustments).timelock.periodFor Sample.pay = 90 := by
  obtain ⟨e₀, created, h⟩ := Sample.exists_of_holds Sample.adjusts
  have periods : (e₀.updates Sample.pay Sample.adjustments).map Prod.snd = [120, 90] :=
    of_decide_eq_true h
  have history := (periods_follow_updates created Sample.adjustments).1 Sample.pay
  have configured : Sample.config.timelock.periodFor Sample.pay = 60 := rfl
  refine ⟨e₀, created, periods, ?_, ?_⟩
  · rw [history.answers, periods, configured]
    rfl
  · rw [history.current, periods]
    rfl

end Countersign
