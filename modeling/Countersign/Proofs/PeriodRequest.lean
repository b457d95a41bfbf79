import Countersign.Proofs.Conformance
import Countersign.Proofs.Integrity
import Countersign.Proofs.PeriodHistory

/-!
# Requesting a period

The function through which a period is requested, its operation type and its path are built into a new
engine and stay (`Governable`). So of a request that its requester is granted only the release time can
be missing: the period of the governing type, which the request is to wait for, is added to the clock,
and the sum need not fit. The configured period does no harm, and no update of another type does. An
update of the governing type itself may: periods have no upper bound, and the last such update decides
(`period_requests_accepted`).
-/

namespace Countersign

open Governance (PeriodUpdate)

/-! ## Times -/

namespace TimeLockPolicy

theorem releaseTime_eq_error {p : TimeLockPolicy} {operation : OperationType} {now : UInt64}
    (overflow : UInt64.size ≤ now.toNat + (p.periodFor operation).toNat) :
    p.releaseTime operation now = .error .timeOverflow := by
  rw [releaseTime, add?_eq_none_iff.mpr overflow]

end TimeLockPolicy

/-- All configured periods are below a bound. -/
structure TimeLockConfig.Below (c : TimeLockConfig) (bound : Nat) : Prop where
  defaultPeriod : c.defaultPeriod.toNat < bound
  overrides : ∀ name o, c.overrides.get? name = some o →
    ∀ period, o.period = some period → period.toNat < bound

theorem TimeLockConfig.Below.periodFor {c : TimeLockConfig} {bound : Nat} (h : c.Below bound)
    (operation : OperationType) : (c.periodFor operation).toNat < bound := by
  unfold TimeLockConfig.periodFor
  cases last :
    (c.overrides.entries.filterMap (OperationOverride.periodFor? operation)).getLast? with
  | none => exact h.defaultPeriod
  | some period =>
    obtain ⟨⟨name, o⟩, stored, carries⟩ := List.mem_filterMap.mp (List.mem_of_getLast? last)
    unfold OperationOverride.periodFor? at carries
    split at carries
    · exact h.overrides name o (SortedMap.get?_eq_some_iff.mpr stored) period carries
    · cases carries

namespace Engine

variable {e e₀ : Engine} {cs : List Command} {caller : Identity} {u : PeriodUpdate}
  {release : UInt64}

/-! ## What is built in -/

theorem lookup_of_initialCatalog {catalog : Catalog} (h : initialCatalog = .ok catalog) :
    catalog.lookup Governance.operation =
      .ok ⟨Governance.operation, Governance.operationName, WorkflowPath.standardSet⟩ := by
  obtain ⟨⟨catalog', operation⟩, registered, rfl⟩ := map_eq_ok_iff.mp h
  rw [Catalog.lookup_eq_ok_iff]
  obtain ⟨-, -, -, -, ⟨stored, -⟩ | ⟨-, rfl⟩⟩ := Catalog.register_eq_ok_iff.mp registered
  · cases stored
  · exact SortedMap.get?_insert_self

/-- Requests of periods find their operation type, their function and their path. -/
structure Governable (e : Engine) : Prop where
  registered : e.catalog.contains Governance.operation = true
  served : e.Serves Governance.requestHandler Governance.operation [.timeDelayRequest]
  onPath : e.catalog.permits Governance.operation [.timeDelayRequest] = true

theorem governable_of_create {config : EngineConfig} {clock : UInt64} {sink : EventSink}
    {dispatcher : Dispatcher} (created : create config clock sink dispatcher = .ok e) :
    e.Governable := by
  have new := created_of_create created
  obtain ⟨owner, roles⟩ := new.access
  have found := lookup_of_initialCatalog new.catalog
  have declared := (undergoes_of_initialAccess roles).declared
    (show .registerFunction requestFunction ∈ initialChanges owner by simp [initialChanges])
  refine ⟨?registered, ?served, ?onPath⟩
  case registered => exact SortedMap.contains_iff.mpr ⟨_, Catalog.lookup_eq_ok_iff.mp found⟩
  case served => exact ⟨requestFunction, declared, rfl, by decide⟩
  case onPath => exact Catalog.permits_eq_true_iff.mpr ⟨_, found, by decide⟩

theorem Governable.run (h : e.Governable) (cs : List Command) : (e.run cs).Governable where
  registered := (grows_run e cs).contains h.registered
  served := (grows_run e cs).serves h.served
  onPath := (grows_run e cs).permits h.onPath

/-! ## One request -/

theorem executionFlaw?_updateRequest {engine : Identity} (period : u.period ≠ 0) :
    executionFlaw? engine (Governance.updateRequest engine caller u) = none := by
  refine executionFlaw?_eq_none_iff.mpr ⟨⟨fun _ => rfl, fun _ => rfl⟩, fun _ => ?_, fun other => ?_⟩
  · exact ⟨rfl, u, rfl, period⟩
  · exact absurd rfl other

/-- Of a request with all else in order only the release time is left to check. -/
theorem checkRequest_eq_releaseTime {handler : Selector} {q : Request}
    (registered : e.catalog.contains q.operation = true)
    (served : e.Serves handler q.operation [.timeDelayRequest])
    (onPath : e.catalog.permits q.operation [.timeDelayRequest] = true)
    (execution : executionFlaw? e.identity q = none)
    (granted : e.access.allows q.requester handler .timeDelayRequest = true) :
    e.checkRequest handler q = e.timelock.releaseTime q.operation e.clock := by
  have operation : e.requireOperation q.operation = .ok () := ensure_eq_ok_iff.mpr registered
  have workflow : e.requireWorkflow q.operation [] .timeDelayRequest [] = .ok () :=
    ensure_eq_ok_iff.mpr onPath
  have grant : e.requireGrant q.requester handler .timeDelayRequest = .ok () :=
    ensure_eq_ok_iff.mpr granted
  rw [checkRequest, operation, requireHandler_eq_ok_iff.mpr served, workflow,
    requireExecution_eq_ok_iff.mpr execution, grant]
  rfl

theorem Governable.checkRequest_eq (h : e.Governable) (period : u.period ≠ 0)
    (granted : e.access.allows caller Governance.requestHandler .timeDelayRequest = true) :
    e.checkRequest Governance.requestHandler (Governance.updateRequest e.identity caller u) =
      e.timelock.releaseTime Governance.operation e.clock :=
  checkRequest_eq_releaseTime h.registered h.served h.onPath (executionFlaw?_updateRequest period)
    granted

/-- A request that is released at a time of the clock is accepted. -/
theorem Governable.requestPeriod_ok (h : e.Governable) (room : e.ledger.HasRoom)
    (period : u.period ≠ 0)
    (granted : e.access.allows caller Governance.requestHandler .timeDelayRequest = true)
    (fits : e.clock.toNat + (e.timelock.periodFor Governance.operation).toNat < UInt64.size) :
    (e.requestPeriod caller u).2 = .ok e.ledger.nextId := by
  obtain ⟨release, hr⟩ : ∃ release, e.timelock.releaseTime Governance.operation e.clock =
      .ok release :=
    ⟨_, TimeLockPolicy.releaseTime_eq_ok_iff.mpr (UInt64.toNat_ofNat_of_lt' fits)⟩
  have may := checkRequest_eq_ok_iff.mp ((h.checkRequest_eq period granted).trans hr)
  rw [requestPeriod, request_ok may room]

/-- One that is not fails its last check. -/
theorem Governable.requestPeriod_overflow (h : e.Governable) (period : u.period ≠ 0)
    (granted : e.access.allows caller Governance.requestHandler .timeDelayRequest = true)
    (overflow : UInt64.size ≤
      e.clock.toNat + (e.timelock.periodFor Governance.operation).toNat) :
    e.requestPeriod caller u = (e, .error .timeOverflow) := by
  have hc := (h.checkRequest_eq period granted).trans (TimeLockPolicy.releaseTime_eq_error overflow)
  rw [requestPeriod, request, hc, attempt_error]

/-! ## Along a run -/

/-- The period of the last update of the governing type itself that a run completes. -/
def lastGoverning (e : Engine) (cs : List Command) : Option UInt64 :=
  ((e.updates Governance.operation cs).map Prod.snd).getLast?

/-- Requests of periods wait for that period, or for the configured one. -/
theorem governing_period {config : EngineConfig} {clock : UInt64} {sink : EventSink}
    {dispatcher : Dispatcher} (created : create config clock sink dispatcher = .ok e₀)
    (cs : List Command) : (e₀.run cs).timelock.periodFor Governance.operation =
      (e₀.lastGoverning cs).getD (config.timelock.periodFor Governance.operation) := by
  obtain ⟨governs, configured⟩ := governs_of_create created
  rw [(periods_run (numbered_of_create created) governs cs Governance.operation).1, configured]
  rfl

/-- Take a run of a new engine whose configured periods are below `2 ^ 62`, with the clock below `2 ^ 63`
and numbers left at its end. Whoever is granted it can request any period there, unless the run has
completed an update of the governing type itself and the last one set a period with which the clock
overflows. Then the request is refused for that, without any effect. -/
theorem period_requests_accepted {config : EngineConfig} {clock : UInt64} {sink : EventSink}
    {dispatcher : Dispatcher} (created : create config clock sink dispatcher = .ok e₀)
    (moderate : config.timelock.Below (UInt64.size / 4)) (cs : List Command)
    (early : (e₀.run cs).clock.toNat < UInt64.size / 2)
    (numbers : (e₀.run cs).ledger.next.toNat + 1 < UInt64.size) (caller : Identity)
    (u : PeriodUpdate) (period : u.period ≠ 0)
    (granted : (e₀.run cs).access.allows caller Governance.requestHandler .timeDelayRequest = true) :
    ((∀ p, e₀.lastGoverning cs = some p →
        (e₀.run cs).clock.toNat + p.toNat < UInt64.size) →
      ((e₀.run cs).requestPeriod caller u).2 = .ok (e₀.run cs).ledger.nextId) ∧
    ∀ p, e₀.lastGoverning cs = some p →
      UInt64.size ≤ (e₀.run cs).clock.toNat + p.toNat →
      (e₀.run cs).requestPeriod caller u = (e₀.run cs, .error .timeOverflow) := by
  have governable := (governable_of_create created).run cs
  have room := ((isNew_of_create created).numbered cs).hasRoom numbers
  have current := governing_period created cs
  constructor
  · intro fits
    apply governable.requestPeriod_ok room period granted
    rw [current]
    cases last : e₀.lastGoverning cs with
    | none =>
      have configured := moderate.periodFor Governance.operation
      have size : UInt64.size = 18446744073709551616 := rfl
      rw [Option.getD_none]
      omega
    | some p => exact fits p last
  · intro p last overflow
    apply governable.requestPeriod_overflow period granted
    rw [current, last]
    exact overflow

end Engine

/-!
## The governing type updates itself

The owner has the period of the governing type changed. With the longest period there is, no request of
a period is accepted any more.
-/

namespace Sample

/-- The period of the governing type is changed. -/
def lengthening (period : UInt64) : List Command :=
  [.requestPeriod owner ⟨Governance.operation, period⟩, .setClock 160, .approve txId owner]

def longest : UInt64 := 18446744073709551615

theorem config_below : config.timelock.Below (UInt64.size / 4) where
  defaultPeriod := by decide
  overrides _ _ stored := by cases stored

theorem lengthens : holds [] (fun e =>
    let e' := e.run (lengthening 100)
    decide (e.lastGoverning (lengthening 100) = some 100 ∧ e'.clock = 160 ∧ e'.ledger.next = 2 ∧
      e'.access.allows owner Governance.requestHandler .timeDelayRequest = true)) = true := by
  decide +kernel

theorem exists_lengthened : ∃ e₀, Engine.create config 100 (.memory []) .empty = .ok e₀ ∧
    e₀.lastGoverning (lengthening 100) = some 100 ∧ (e₀.run (lengthening 100)).clock = 160 ∧
    (e₀.run (lengthening 100)).ledger.next = 2 ∧
    (e₀.run (lengthening 100)).access.allows owner Governance.requestHandler .timeDelayRequest =
      true := by
  obtain ⟨e₀, created, h⟩ := exists_of_holds lengthens
  exact ⟨e₀, created, of_decide_eq_true h⟩

theorem overflows : holds (lengthening longest) (fun e =>
    match (e.requestPeriod owner ⟨pay, 120⟩).2 with
    | .error fault => decide (fault = .timeOverflow ∧ e.clock.toNat < UInt64.size / 2 ∧
        e.ledger.next.toNat + 1 < UInt64.size ∧
        e.access.allows owner Governance.requestHandler .timeDelayRequest = true)
    | .ok _ => false) = true := by
  decide +kernel

end Sample

namespace Engine

/-- After a moderate change of that period another period can be requested. -/
theorem sample_lengthened : ∃ e₀, create Sample.config 100 (.memory []) .empty = .ok e₀ ∧
    ((e₀.run (Sample.lengthening 100)).requestPeriod Sample.owner ⟨Sample.pay, 120⟩).2 =
      .ok ⟨2⟩ := by
  obtain ⟨e₀, created, last, clock, next, granted⟩ := Sample.exists_lengthened
  have early : (e₀.run (Sample.lengthening 100)).clock.toNat < UInt64.size / 2 := by
    rw [clock]
    decide
  have numbers : (e₀.run (Sample.lengthening 100)).ledger.next.toNat + 1 < UInt64.size := by
    rw [next]
    decide
  obtain ⟨accepted, -⟩ := period_requests_accepted created Sample.config_below
    (Sample.lengthening 100) early numbers Sample.owner ⟨Sample.pay, 120⟩ (by decide) granted
  refine ⟨e₀, created, (accepted fun p hp => ?_).trans ?_⟩
  · cases last.symm.trans hp
    rw [clock]
    decide
  · rw [Ledger.nextId, next]

/-- After a change to the longest period none can be, although it is granted. -/
theorem sample_overflowing : ∃ e₀, create Sample.config 100 (.memory []) .empty = .ok e₀ ∧
    Sample.config.timelock.Below (UInt64.size / 4) ∧
    let e := e₀.run (Sample.lengthening Sample.longest)
    e.clock.toNat < UInt64.size / 2 ∧ e.ledger.next.toNat + 1 < UInt64.size ∧
    e.access.allows Sample.owner Governance.requestHandler .timeDelayRequest = true ∧
    (e.requestPeriod Sample.owner ⟨Sample.pay, 120⟩).2 = .error .timeOverflow := by
  obtain ⟨e₀, created, h⟩ := Sample.exists_of_holds Sample.overflows
  split at h
  · next fault rejected =>
    obtain ⟨rfl, early, numbers, granted⟩ := of_decide_eq_true h
    exact ⟨e₀, created, Sample.config_below, early, numbers, granted, rejected⟩
  · cases h

end Engine

end Countersign
