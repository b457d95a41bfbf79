import Countersign.Proofs.Frame

/-!
# Periods and their updates

A record of the governing operation type carries a `PeriodUpdate` for the engine's own policy, and no
other record calls the engine (`Record.Governed`). This is asked when the record is opened and holds
as long as it is stored, so carrying it out always sets the period and never leaves the engine
(`carrying_update`). No period is ever zero.
-/

namespace Countersign

open Governance (PeriodUpdate)

/-! ## Policies -/

namespace TimeLockPolicy

variable {p p' : TimeLockPolicy} {operation : OperationType} {period : UInt64}

def Positive (p : TimeLockPolicy) : Prop := ∀ operation, p.periodFor operation ≠ 0

def withPeriod (p : TimeLockPolicy) (operation : OperationType) (period : UInt64) :
    TimeLockPolicy :=
  { p with periods := p.periods.insert operation period }

theorem periodFor_withPeriod {j : OperationType} :
    (p.withPeriod operation period).periodFor j =
      if j = operation then period else p.periodFor j := by
  unfold periodFor withPeriod
  rw [SortedMap.get?_insert]
  split <;> rfl

theorem withPeriod_comm {other : OperationType} {period' : UInt64} (h : operation ≠ other) :
    (p.withPeriod operation period).withPeriod other period' =
      (p.withPeriod other period').withPeriod operation period := by
  simp only [withPeriod, SortedMap.insert_comm h]

theorem setPeriod_eq_ok_iff {previous : UInt64} :
    p.setPeriod operation period = .ok (p', previous) ↔
      period ≠ 0 ∧ p' = p.withPeriod operation period ∧ previous = p.periodFor operation := by
  simp only [setPeriod, bind_eq_ok_iff, ensure_eq_ok_iff, exists_unit_iff, pure_eq_ok_iff,
    Prod.mk.injEq]
  exact and_congr_right fun _ => and_congr eq_comm eq_comm

theorem map_setPeriod_eq_ok_iff :
    (p.setPeriod operation period).map Prod.fst = .ok p' ↔
      period ≠ 0 ∧ p' = p.withPeriod operation period := by
  rw [map_eq_ok_iff]
  constructor
  · rintro ⟨⟨q, previous⟩, h, rfl⟩
    obtain ⟨hne, rfl, -⟩ := setPeriod_eq_ok_iff.mp h
    exact ⟨hne, rfl⟩
  · rintro ⟨hne, rfl⟩
    exact ⟨(_, p.periodFor operation), setPeriod_eq_ok_iff.mpr ⟨hne, rfl, rfl⟩, rfl⟩

theorem Positive.withPeriod (h : p.Positive) (hp : period ≠ 0) :
    (p.withPeriod operation period).Positive := by
  intro j
  rw [periodFor_withPeriod]
  split
  · exact hp
  · exact h j

theorem create_eq_ok_iff {defaultPeriod : UInt64} :
    create defaultPeriod = .ok p ↔ defaultPeriod ≠ 0 ∧ p = ⟨defaultPeriod, .empty, .empty⟩ := by
  simp only [create, bind_eq_ok_iff, ensure_eq_ok_iff, exists_unit_iff, pure_eq_ok_iff]
  exact and_congr_right fun _ => eq_comm

end TimeLockPolicy

/-! ## Configured policies -/

/-- The period that an entry of the overrides gives an operation type. -/
def OperationOverride.periodFor? (operation : OperationType) (entry : String × OperationOverride) :
    Option UInt64 :=
  if OperationType.ofName entry.1 = operation then entry.2.period else Option.none

/-- The cancel window that an entry of the overrides gives an operation type. -/
def OperationOverride.windowFor? (operation : OperationType) (entry : String × OperationOverride) :
    Option CancelWindow :=
  if OperationType.ofName entry.1 = operation then entry.2.cancelWindow else Option.none

/-- The configured period of an operation type: that of its override, or the default. Of several names
for one operation type the last one counts. -/
def TimeLockConfig.periodFor (c : TimeLockConfig) (operation : OperationType) : UInt64 :=
  (c.overrides.entries.filterMap (OperationOverride.periodFor? operation)).getLast?.getD
    c.defaultPeriod

/-- The configured cancel window of an operation type. -/
def TimeLockConfig.windowFor (c : TimeLockConfig) (operation : OperationType) : CancelWindow :=
  (c.overrides.entries.filterMap (OperationOverride.windowFor? operation)).getLast?.getD .anytime

namespace TimeLockPolicy

variable {p : TimeLockPolicy} {operation : OperationType}

/-- The policy with what an entry of the overrides gives its operation type. -/
def overridden (p : TimeLockPolicy) (entry : String × OperationOverride) : TimeLockPolicy where
  defaultPeriod := p.defaultPeriod
  periods := match entry.2.period with
    | none => p.periods
    | some period => p.periods.insert (.ofName entry.1) period
  cancelWindows := match entry.2.cancelWindow with
    | none => p.cancelWindows
    | some window => p.cancelWindows.insert (.ofName entry.1) window

theorem periodFor_overridden (p : TimeLockPolicy) (entry : String × OperationOverride) :
    (p.overridden entry).periodFor operation =
      (OperationOverride.periodFor? operation entry).getD (p.periodFor operation) := by
  unfold OperationOverride.periodFor? periodFor overridden
  cases entry.2.period with
  | none => simp
  | some period =>
    dsimp only
    rw [SortedMap.get?_insert]
    by_cases h : operation = .ofName entry.1
    · simp [h]
    · simp [h, Ne.symm h]

theorem cancelWindow_overridden (p : TimeLockPolicy) (entry : String × OperationOverride) :
    (p.overridden entry).cancelWindow operation =
      (OperationOverride.windowFor? operation entry).getD (p.cancelWindow operation) := by
  unfold OperationOverride.windowFor? cancelWindow overridden
  cases entry.2.cancelWindow with
  | none => simp
  | some window =>
    dsimp only
    rw [SortedMap.get?_insert]
    by_cases h : operation = .ofName entry.1
    · simp [h]
    · simp [h, Ne.symm h]

/-- What each override either sets or leaves as it was is what the last one has set. -/
theorem last_override {β : Type} (read : TimeLockPolicy → β)
    (set? : String × OperationOverride → Option β)
    (sets : ∀ p entry, read (overridden p entry) = (set? entry).getD (read p))
    (p : TimeLockPolicy) (entries : List (String × OperationOverride)) :
    read (entries.foldl overridden p) = (entries.filterMap set?).getLast?.getD (read p) := by
  induction entries generalizing p with
  | nil => rfl
  | cons entry entries ih =>
    rw [List.foldl_cons, ih, sets]
    cases hset : set? entry with
    | none => rw [List.filterMap_cons_none hset, Option.getD_none]
    | some b => rw [List.filterMap_cons_some hset, List.getLast?_cons, Option.getD_some]; rfl

end TimeLockPolicy

namespace Engine

variable {p p' : TimeLockPolicy}

theorem applyOverride_eq_ok_iff {entry : String × OperationOverride} :
    applyOverride p entry = .ok p' ↔ entry.2.period ≠ some 0 ∧ p.overridden entry = p' := by
  obtain ⟨name, period, window⟩ := entry
  cases period with
  | none => cases window <;> simp [applyOverride, TimeLockPolicy.overridden,
      TimeLockPolicy.setCancelWindow, pure_eq_ok_iff]
  | some period =>
    have steps : applyOverride p (name, ⟨some period, window⟩) =
        (p.setPeriod (.ofName name) period).map Prod.fst >>= fun q => pure (match window with
          | none => q
          | some window => q.setCancelWindow (.ofName name) window) := by
      cases window <;> rfl
    simp only [steps, bind_eq_ok_iff, TimeLockPolicy.map_setPeriod_eq_ok_iff, pure_eq_ok_iff, ne_eq,
      Option.some.injEq]
    constructor
    · rintro ⟨q, ⟨hne, rfl⟩, rfl⟩
      exact ⟨hne, by cases window <;> rfl⟩
    · rintro ⟨hne, rfl⟩
      exact ⟨_, ⟨hne, rfl⟩, by cases window <;> rfl⟩

theorem applyOverrides_eq_ok_iff {entries : List (String × OperationOverride)} :
    entries.foldlM applyOverride p = .ok p' ↔
      (∀ entry ∈ entries, entry.2.period ≠ some 0) ∧
        entries.foldl TimeLockPolicy.overridden p = p' := by
  induction entries generalizing p with
  | nil => simp [pure_eq_ok_iff]
  | cons entry entries ih =>
    simp only [List.foldlM_cons, bind_eq_ok_iff, applyOverride_eq_ok_iff, ih, List.forall_mem_cons,
      List.foldl_cons]
    constructor
    · rintro ⟨q, ⟨hne, rfl⟩, positive, rfl⟩
      exact ⟨⟨hne, positive⟩, rfl⟩
    · rintro ⟨⟨hne, positive⟩, rfl⟩
      exact ⟨_, ⟨hne, rfl⟩, positive, rfl⟩

/-- A policy comes of a configuration without a period of zero. -/
theorem policyOf_eq_ok_iff {c : TimeLockConfig} :
    policyOf c = .ok p ↔ c.defaultPeriod ≠ 0 ∧
      (∀ entry ∈ c.overrides.entries, entry.2.period ≠ some 0) ∧
      c.overrides.entries.foldl TimeLockPolicy.overridden ⟨c.defaultPeriod, .empty, .empty⟩ = p := by
  simp only [policyOf, bind_eq_ok_iff, TimeLockPolicy.create_eq_ok_iff, applyOverrides_eq_ok_iff]
  constructor
  · rintro ⟨q, ⟨hne, rfl⟩, positive, rfl⟩
    exact ⟨hne, positive, rfl⟩
  · rintro ⟨hne, positive, rfl⟩
    exact ⟨_, ⟨hne, rfl⟩, positive, rfl⟩

/-- An engine starts with the configured periods, none of them zero. -/
theorem policyOf_spec {c : TimeLockConfig} (h : policyOf c = .ok p) :
    p.Positive ∧ ∀ operation, p.periodFor operation = c.periodFor operation := by
  obtain ⟨hne, positive, rfl⟩ := policyOf_eq_ok_iff.mp h
  have periods (operation : OperationType) := TimeLockPolicy.last_override
    (fun p => p.periodFor operation) (OperationOverride.periodFor? operation)
    TimeLockPolicy.periodFor_overridden ⟨c.defaultPeriod, .empty, .empty⟩ c.overrides.entries
  refine ⟨fun operation => ?_, periods⟩
  rw [periods]
  cases last :
    (c.overrides.entries.filterMap (OperationOverride.periodFor? operation)).getLast? with
  | none => exact hne
  | some period =>
    obtain ⟨entry, stored, carries⟩ := List.mem_filterMap.mp (List.mem_of_getLast? last)
    unfold OperationOverride.periodFor? at carries
    split at carries
    · have set := positive entry stored
      rw [carries] at set
      exact fun zero => set (congrArg some zero)
    · cases carries

/-- An engine starts with the configured cancel windows. -/
theorem cancelWindow_of_policyOf {c : TimeLockConfig} (h : policyOf c = .ok p)
    (operation : OperationType) : p.cancelWindow operation = c.windowFor operation := by
  obtain ⟨-, -, rfl⟩ := policyOf_eq_ok_iff.mp h
  exact TimeLockPolicy.last_override (fun p => p.cancelWindow operation)
    (OperationOverride.windowFor? operation) TimeLockPolicy.cancelWindow_overridden _ _

end Engine

/-! ## Updates -/

theorem Governance.PeriodUpdate.decode?_eq_some_iff {bs : Bytes} {u : PeriodUpdate} :
    PeriodUpdate.decode? bs = some u ↔ bs = u.encode :=
  ⟨fun h => (PeriodUpdate.encode_of_decode? h).symm, fun h => h ▸ PeriodUpdate.decode?_encode u⟩

/-- A call with an update sets its period and answers with the one before. -/
theorem Governance.handleCall_update {p : TimeLockPolicy} {call : Call} {u : PeriodUpdate}
    (payload : call.payload = .standard Governance.setPeriod u.encode) (hu : u.period ≠ 0) :
    Governance.handleCall p call =
      (p.withPeriod u.operation u.period, .ok (leBytes 8 (p.periodFor u.operation).toNat)) := by
  have hset : p.setPeriod u.operation u.period =
      .ok (p.withPeriod u.operation u.period, p.periodFor u.operation) :=
    TimeLockPolicy.setPeriod_eq_ok_iff.mpr ⟨hu, rfl, rfl⟩
  simp only [Governance.handleCall, payload, ne_eq, not_true_eq_false, ↓reduceIte,
    PeriodUpdate.decode?_encode, hset]

namespace Record

/-- The update that a record of the governing operation type carries. -/
def update? (r : Record) : Option PeriodUpdate :=
  if r.operation = Governance.operation then
    match r.request.execution with
    | .standard _ params => PeriodUpdate.decode? params
    | _ => none
  else none

/-- The period that a record carries for an operation type, if it is an update of it. -/
def periodFor? (operation : OperationType) (r : Record) : Option UInt64 :=
  (r.update?.filter fun u => u.operation = operation).map PeriodUpdate.period

/-- The records of the governing operation type, and only they, call the engine: with an update, and
without a payment. Such a record does not fail. -/
structure Governed (engine : Identity) (r : Record) : Prop where
  target : r.request.target = engine ↔ r.operation = Governance.operation
  update : r.operation = Governance.operation →
    ∃ u : PeriodUpdate,
      r.request.execution = .standard Governance.setPeriod u.encode ∧ u.period ≠ 0
  unpaid : r.operation = Governance.operation → r.payment = none
  unfailed : r.operation = Governance.operation → r.status ≠ .failed

variable {engine : Identity} {r : Record}

theorem update?_of_execution (governs : r.operation = Governance.operation) {u : PeriodUpdate}
    {selector : Selector} (h : r.request.execution = .standard selector u.encode) :
    r.update? = some u := by
  rw [update?, if_pos governs, h]
  exact PeriodUpdate.decode?_encode u

theorem Governed.extended (h : r.Governed engine) (actions : List Action) :
    (r.extended actions).Governed engine :=
  ⟨h.target, h.update, h.unpaid, h.unfailed⟩

end Record

section Flaws

variable {engine : Identity} {r : Request} {p : Payment}

theorem target_of_flaw (h : executionFlaw? engine r = none) :
    r.target = engine ↔ r.operation = Governance.operation := by
  unfold executionFlaw? at h
  split at h
  · cases h
  · next hn => exact Decidable.not_not.mp hn

theorem exists_update_of_flaw (h : executionFlaw? engine r = none)
    (governs : r.operation = Governance.operation) :
    ∃ u : PeriodUpdate, r.execution = .standard Governance.setPeriod u.encode ∧ u.period ≠ 0 := by
  have target := target_of_flaw h
  unfold executionFlaw? at h
  rw [if_neg (not_not_intro target), if_pos (target.mpr governs)] at h
  split at h
  · cases h
  split at h
  · next selector params hx =>
    split at h
    · cases h
    next hselector =>
      split at h
      · next u hu =>
        split at h
        · cases h
        next hperiod =>
          rw [Decidable.not_not] at hselector
          subst hselector
          exact ⟨u, by rw [hx, PeriodUpdate.encode_of_decode? hu], hperiod⟩
      · cases h
  · cases h

theorem target_ne_of_flaw (h : paymentFlaw? engine r p = none) : r.target ≠ engine := by
  intro target
  rw [paymentFlaw?, if_pos target] at h
  cases h

end Flaws

namespace Engine

open Surroundings (ofEngine)

variable {e e' e₀ : Engine} {c : Command} {cs : List Command} {reply : Reply} {id : TxId}
  {r : Record} {message : Option Digest}

/-! ## Carrying out an update -/

/-- What is open and has passed the checks of a request is governed. -/
theorem governed_of_flaw {engine : Identity} (h : executionFlaw? engine r.request = none)
    (unpaid : r.operation = Governance.operation → r.payment = none)
    (pending : r.status = .pending) : r.Governed engine where
  target := target_of_flaw h
  update := exists_update_of_flaw h
  unpaid := unpaid
  unfailed _ := by rw [pending]; decide

theorem carrying_update (h : r.Governed e.identity) (governs : r.operation = Governance.operation) :
    ∃ u, r.update? = some u ∧ u.period ≠ 0 ∧
      e.carrying r = (e.timelock.withPeriod u.operation u.period, e.dispatcher,
        .completed (leBytes 8 (e.timelock.periodFor u.operation).toNat)) := by
  obtain ⟨u, hx, hu⟩ := h.update governs
  refine ⟨u, Record.update?_of_execution governs hx, hu, ?_⟩
  obtain ⟨call, hcall, target, payload⟩ : ∃ call, Call.ofRecord? r = some call ∧
      call.target = e.identity ∧ call.payload = .standard Governance.setPeriod u.encode := by
    rw [Call.ofRecord?, hx]
    exact ⟨_, rfl, h.target.mpr governs, rfl⟩
  have called : (ofEngine Governance.handleCall).makeCall e.identity (e.timelock, e.dispatcher) r =
      ((e.timelock.withPeriod u.operation u.period, e.dispatcher),
        .ok (leBytes 8 (e.timelock.periodFor u.operation).toNat)) := by
    simp only [Surroundings.makeCall, hcall, target, ↓reduceIte, ofEngine,
      Governance.handleCall_update payload hu]
  have unpaid (s : TimeLockPolicy × Dispatcher) :
      (ofEngine Governance.handleCall).releasePayment s r = (s, .ok ()) := by
    rw [Surroundings.releasePayment, h.unpaid governs]
  simp only [carrying, execute, Surroundings.carryOut, called, unpaid]

/-- Other records do not touch the policy. -/
theorem carrying_other (h : r.Governed e.identity) (other : r.operation ≠ Governance.operation) :
    (e.carrying r).1 = e.timelock := by
  have target : r.request.target ≠ e.identity := fun ht => other (h.target.mp ht)
  rw [carrying, execute_state]
  cases hc : Call.ofRecord? r with
  | none => rfl
  | some call =>
    obtain ⟨payload, -, rfl⟩ := Option.map_eq_some_iff.mp hc
    exact if_neg target

/-- Carrying out a record applies the update that it carries, if it carries one. -/
theorem carrying_timelock (h : r.Governed e.identity) :
    (e.carrying r).1 = match r.update? with
      | some u => e.timelock.withPeriod u.operation u.period
      | none => e.timelock := by
  by_cases governs : r.operation = Governance.operation
  · obtain ⟨u, hu, -, hc⟩ := carrying_update h governs
    rw [hu, hc]
  · rw [carrying_other h governs, Record.update?, if_neg governs]

/-- A record ends in the same way in another engine with the same answers and with the same period of
the operation type that it updates. -/
theorem carrying_outcome_congr (h : r.Governed e.identity) (place : e'.identity = e.identity)
    (alike : e'.dispatcher.Alike e.dispatcher)
    (period : ∀ u, r.update? = some u →
      e'.timelock.periodFor u.operation = e.timelock.periodFor u.operation) :
    (e'.carrying r).2.2 = (e.carrying r).2.2 := by
  by_cases governs : r.operation = Governance.operation
  · obtain ⟨u, hu, -, hc⟩ := carrying_update h governs
    obtain ⟨u', hu', -, hc'⟩ := carrying_update (e := e') (place ▸ h) governs
    cases hu.symm.trans hu'
    rw [hc, hc', period u hu]
  · unfold carrying
    rw [place]
    refine execute_outcome_congr alike fun call hc target => ?_
    obtain ⟨payload, -, rfl⟩ := Option.map_eq_some_iff.mp hc
    exact absurd (h.target.mp target) governs

/-- A governing record sets the period that it carries and answers with the one before, and the
dispatcher hears nothing of it. -/
structure Applies (e : Engine) (final : Record) (e' : Engine) : Prop where
  status : final.status = .completed
  update : ∃ u, final.update? = some u ∧ u.period ≠ 0 ∧
    final.result = leBytes 8 (e.timelock.periodFor u.operation).toNat ∧
    e'.timelock = e.timelock.withPeriod u.operation u.period
  dispatcher : e'.dispatcher = e.dispatcher

theorem applies_of_carrying (h : r.Governed e.identity)
    (governs : r.operation = Governance.operation) (ht : e'.timelock = (e.carrying r).1)
    (hd : e'.dispatcher = (e.carrying r).2.1) : e.Applies (e.executed r message) e' := by
  obtain ⟨u, hu, hne, hc⟩ := carrying_update h governs
  rw [hc] at ht hd
  refine ⟨?_, ⟨u, hu, hne, ?_, ht⟩, hd⟩
  · show (e.carrying r).2.2.status = .completed
    rw [hc]
    rfl
  · show (e.carrying r).2.2.result = _
    rw [hc]
    rfl

theorem governed_executed (h : r.Governed e.identity) :
    (e.executed r message).Governed e.identity := by
  refine ⟨h.target, h.update, h.unpaid, fun governs => ?_⟩
  have applies : e.Applies (e.executed r message) (e.carriedOut r.id r message) :=
    applies_of_carrying h governs rfl rfl
  rw [applies.status]
  exact Status.noConfusion

theorem governed_calledOff {actions : List Action} (h : r.Governed e.identity) :
    (calledOff r actions message).Governed e.identity :=
  ⟨h.target, h.update, h.unpaid, fun _ => Status.noConfusion⟩

/-- A payment is refused to records that call the engine. -/
theorem governed_attached {p : Payment} (h : r.Governed e.identity)
    (accepted : paymentFlaw? e.identity r.request p = none) :
    { r with payment := some p }.Governed e.identity :=
  ⟨h.target, h.update,
    fun governs => absurd (h.target.mpr governs) (target_ne_of_flaw accepted), h.unfailed⟩

/-! ## What every step keeps -/

/-- All records are governed, and no period is zero. -/
structure Governs (e : Engine) : Prop where
  records : ∀ id r, e.ledger.records.get? id = some r → r.Governed e.identity
  positive : e.timelock.Positive

/-- What a command does to the policy: nothing, unless it completes a governing record. -/
inductive Periods (e : Engine) (reply : Reply) (e' : Engine) : Prop where
  | kept (same : ∀ operation, e'.timelock.periodFor operation = e.timelock.periodFor operation)
      (other : ∀ r, reply = .closed r → r.operation = Governance.operation →
        r.status = .cancelled)
  | set (final : Record) (closed : reply = .closed final)
      (governs : final.operation = Governance.operation) (applies : e.Applies final e')

/-- Carrying out any record either leaves the policy alone or applies an update. -/
theorem periods_of_carrying (h : r.Governed e.identity) (ht : e'.timelock = (e.carrying r).1)
    (hd : e'.dispatcher = (e.carrying r).2.1) :
    e.Periods (.closed (e.executed r message)) e' := by
  by_cases governs : r.operation = Governance.operation
  · exact .set (e.executed r message) rfl governs (applies_of_carrying h governs ht hd)
  · refine .kept (fun operation => ?_) fun q hq governs' => ?_
    · rw [ht, carrying_other h governs]
    · cases hq
      exact absurd governs' governs

theorem Governs.pending (g : e.Governs) (h : e.ledger.HasPending id r) : r.Governed e.identity :=
  g.records id r h.stored

/-- The record of a payload that is requested and approved in one is governed like any other. -/
theorem governed_signedRecord {tx : MetaTx.Signed} {relay : MetaTx.Relay} {release : UInt64}
    (may : e.MayOpen tx relay release) : (e.signedRecord tx release).Governed e.identity := by
  refine governed_of_flaw (r := e.signedRecord tx release) may.execution (fun governs => ?_) rfl
  show tx.snapshot.payment = none
  cases hp : tx.snapshot.payment with
  | none => rfl
  | some p =>
    exact absurd ((target_of_flaw may.execution).mpr governs)
      (target_ne_of_flaw (may.payment p hp))

theorem Accepts.periods (h : e.Accepts c e' reply) (g : e.Governs) : e.Periods reply e' := by
  cases h with
  | approve may => exact periods_of_carrying ((g.pending may.pending).extended _) rfl rfl
  | approveSigned may fits => exact periods_of_carrying ((g.pending may.pending).extended _) rfl rfl
  | requestSigned may fits room => exact periods_of_carrying (governed_signedRecord may) rfl rfl
  | cancel | cancelSigned =>
    refine .kept (fun _ => rfl) fun r hr _ => ?_
    cases hr
    rfl
  | _ => exact .kept (fun _ => rfl) fun r hr _ => by cases hr

theorem Accepts.governed (h : e.Accepts c e' reply) (g : e.Governs) :
    ∀ id r, e'.ledger.records.get? id = some r → r.Governed e.identity := by
  cases h with
  | request may room =>
    exact Ledger.forall_of_stored g.records (governed_of_flaw may.execution (fun _ => rfl) rfl)
      fun _ => Ledger.get?_opening
  | requestPeriod may room =>
    exact Ledger.forall_of_stored g.records (governed_of_flaw may.execution (fun _ => rfl) rfl)
      fun _ => Ledger.get?_opening
  | attachPayment may =>
    exact Ledger.forall_of_stored g.records (governed_attached (g.pending may.pending) may.payment)
      fun _ => Ledger.get?_put
  | approve may =>
    exact Ledger.forall_of_stored g.records (governed_executed ((g.pending may.pending).extended _))
      fun _ => get?_approved
  | cancel may =>
    exact Ledger.forall_of_stored g.records (governed_calledOff (g.pending may.pending))
      fun _ => Ledger.get?_close
  | approveSigned may fits =>
    exact Ledger.forall_of_stored g.records (governed_executed ((g.pending may.pending).extended _))
      fun _ => get?_approved
  | cancelSigned may fits =>
    exact Ledger.forall_of_stored g.records (governed_calledOff (g.pending may.pending))
      fun _ => Ledger.get?_close
  | requestSigned may fits room =>
    exact Ledger.forall_of_stored g.records (governed_executed (governed_signedRecord may))
      fun _ => get?_requestedSigned
  | _ => exact g.records

theorem Accepts.governs (h : e.Accepts c e' reply) (g : e.Governs) : e'.Governs := by
  refine ⟨fun id r hr => ?_, fun operation => ?_⟩
  · rw [h.grows.identity]
    exact h.governed g id r hr
  · cases h.periods g with
    | kept same =>
      rw [same]
      exact g.positive operation
    | set final _ _ applies =>
      obtain ⟨u, -, hne, -, ht⟩ := applies.update
      rw [ht]
      exact g.positive.withPeriod hne operation

theorem governs_step (hn : e.ledger.Numbered) (g : e.Governs) (c : Command) :
    (e.step c).1.Governs :=
  invariant_step Accepts.governs (fun _ h => ⟨h.records, h.positive⟩) hn g c

theorem governs_run (hn : e.ledger.Numbered) (g : e.Governs) (cs : List Command) :
    (e.run cs).Governs :=
  invariant_run governs_step hn g cs

theorem governs_of_create {config : EngineConfig} {clock : UInt64} {sink : EventSink}
    {dispatcher : Dispatcher} (created : create config clock sink dispatcher = .ok e) :
    e.Governs ∧ ∀ operation, e.timelock.periodFor operation = config.timelock.periodFor operation := by
  have new := created_of_create created
  obtain ⟨positive, periods⟩ := policyOf_spec new.timelock
  exact ⟨⟨new.forall_records, positive⟩, periods⟩

end Engine

end Countersign
