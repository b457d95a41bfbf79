import Countersign.Proofs.Submission

/-!
# Records follow declared paths

The engine only asks that a record's actions begin some declared path of its operation type. But a
declared path has its terminal action at the end and nowhere else, and what is declared stays. So a
record that is closed has followed one of the paths to its end (`records_conform`).
-/

namespace Countersign

open MetaTx (MetaStep)

/-! ## Paths -/

theorem Action.isTerminal_of_isRequest {a : Action} (h : a.isRequest = true) :
    a.isTerminal = false := by
  cases a <;> first | rfl | cases h

namespace WorkflowPath

variable {p : WorkflowPath} {s : List Action} {a : Action}

/-- A path without a flaw leads from a request to a terminal action, over actions that are neither. -/
theorem split_of_flaw?_eq_none (h : p.flaw? = none) : ∃ first inner last,
    p.actions = first :: (inner ++ [last]) ∧ first.isRequest = true ∧ last.isTerminal = true ∧
      ∀ b ∈ inner, b.isTerminal = false ∧ b.isRequest = false := by
  unfold flaw? at h
  split at h
  · next first second rest hp =>
    dsimp only at h
    split at h
    · cases h
    split at h
    · cases h
    split at h
    · cases h
    next hfirst hlast hinner =>
      refine ⟨first, (second :: rest).dropLast, (second :: rest).getLast (by simp), ?_, ?_, ?_, ?_⟩
      · rw [hp, List.dropLast_concat_getLast]
      · simpa using hfirst
      · simpa using hlast
      · simpa using hinner
  · cases h

/-- What begins a declared path and ends with a terminal action is the path. -/
theorem eq_actions_of_isTerminal (h : p.flaw? = none) (hp : s ++ [a] <+: p.actions)
    (ha : a.isTerminal = true) : s ++ [a] = p.actions := by
  obtain ⟨first, inner, last, hsplit, hfirst, -, hinner⟩ := split_of_flaw?_eq_none h
  obtain ⟨t, ht⟩ := hp
  rcases List.eq_nil_or_concat t with rfl | ⟨t, b, rfl⟩
  · rw [← ht, List.append_nil]
  · -- Something is left, so the terminal action would stand before the last one.
    have hinit : s ++ [a] ++ t = first :: inner := by
      rw [hsplit, ← List.cons_append, List.concat_eq_append, ← List.append_assoc] at ht
      exact List.append_inj_left' ht rfl
    have hm : a ∈ first :: inner := by
      rw [← hinit]
      simp
    have hno : a.isTerminal = false := by
      rcases List.mem_cons.mp hm with rfl | hm
      · exact Action.isTerminal_of_isRequest hfirst
      · exact (hinner a hm).1
    rw [hno] at ha
    cases ha

/-- A declared path goes on after its first action. -/
theorem singleton_ne_actions (h : p.flaw? = none) : [a] ≠ p.actions := by
  obtain ⟨first, inner, last, hsplit, -⟩ := split_of_flaw?_eq_none h
  rw [hsplit]
  simp

end WorkflowPath

/-! ## Catalogs -/

namespace Catalog

variable {c c' : Catalog} {id operation : OperationType} {name : String}
  {paths : List WorkflowPath} {actions : List Action}

theorem lookup_eq_ok_iff {entry : OperationEntry} :
    c.lookup id = .ok entry ↔ c.entries.get? id = some entry := by
  unfold lookup
  cases c.entries.get? id with
  | none => simp
  | some entry' => simp

theorem permits_eq_true_iff : c.permits id actions = true ↔
    ∃ entry, c.lookup id = .ok entry ∧ ∃ p ∈ entry.paths, actions <+: p.actions := by
  unfold permits lookup
  cases c.entries.get? id with
  | none => simp
  | some entry => simp [WorkflowPath.startsWith]

/-- Every entry stands under its own type, and none of its paths has a flaw. -/
def Sound (c : Catalog) : Prop :=
  ∀ id entry, c.entries.get? id = some entry →
    entry.id = id ∧ ∀ p ∈ entry.paths, p.flaw? = none

theorem sound_empty : Catalog.empty.Sound := by
  intro id entry h
  cases h

theorem requirePaths_eq_ok_iff :
    requirePaths paths = .ok () ↔ ∀ p ∈ paths, p.flaw? = none := by
  unfold requirePaths
  split
  · next flaw hf =>
    have hsome : ¬ ∀ p ∈ paths, p.flaw? = none := by
      intro h
      rw [List.findSome?_eq_none_iff.mpr h] at hf
      cases hf
    simp [hsome]
  · next hf => simpa using List.findSome?_eq_none_iff.mp hf

theorem Sound.register (hc : c.Sound) (h : c.register id name paths = .ok (c', operation)) :
    c'.Sound := by
  obtain ⟨-, -, -, hpaths, ⟨-, rfl⟩ | ⟨-, rfl⟩⟩ := register_eq_ok_iff.mp h
  · exact hc
  · intro j entry hj
    rw [SortedMap.get?_insert] at hj
    split at hj
    · next hid =>
      cases hj
      exact ⟨hid.symm, requirePaths_eq_ok_iff.mp hpaths⟩
    · exact hc j entry hj

theorem Sound.of_lookup {entry : OperationEntry} (hc : c.Sound) (h : c.lookup id = .ok entry) :
    entry.id = id ∧ ∀ p ∈ entry.paths, p.flaw? = none :=
  hc id entry (lookup_eq_ok_iff.mp h)

end Catalog

/-! ## Routes -/

/-- The ways in which the engine brings a record to its end. -/
inductive Route where
  | approval
  | cancellation
  | signed (step : MetaStep)

namespace Route

/-- All actions from the request on. -/
def actions : Route → List Action
  | approval => [.timeDelayRequest, .timeDelayApprove]
  | cancellation => [.timeDelayRequest, .timeDelayCancel]
  | signed .requestAndApprove => MetaStep.requestAndApprove.pair
  | signed .approve => .timeDelayRequest :: MetaStep.approve.pair
  | signed .cancel => .timeDelayRequest :: MetaStep.cancel.pair

/-- The action that closes the record. -/
def last : Route → Action
  | approval => .timeDelayApprove
  | cancellation => .timeDelayCancel
  | signed step => step.executing

def cancels : Route → Bool
  | cancellation | signed .cancel => true
  | _ => false

def isSigned : Route → Bool
  | signed _ => true
  | _ => false

variable (route : Route)

theorem isTerminal_last : route.last.isTerminal = true := by
  cases route with
  | signed step => cases step <;> rfl
  | _ => rfl

theorem actions_eq_concat : route.actions = route.actions.dropLast ++ [route.last] := by
  cases route with
  | signed step => cases step <;> rfl
  | _ => rfl

theorem getLast?_actions : route.actions.getLast? = some route.last := by
  rw [actions_eq_concat, List.getLast?_concat]

theorem cancels_iff : route.cancels = true ↔
    route.last = .timeDelayCancel ∨ route.last = .executeMetaCancel := by
  cases route with
  | signed step => cases step <;> decide
  | _ => decide

theorem approves_iff : route.cancels = false ↔
    route.last = .timeDelayApprove ∨ route.last = .executeMetaApprove ∨
      route.last = .executeMetaRequestAndApprove := by
  cases route with
  | signed step => cases step <;> decide
  | _ => decide

theorem isSigned_iff : route.isSigned = true ↔
    route.last = .executeMetaRequestAndApprove ∨ route.last = .executeMetaApprove ∨
      route.last = .executeMetaCancel := by
  cases route with
  | signed step => cases step <;> decide
  | _ => decide

end Route

/-- How a record stands: just requested, or brought to its end on some route. -/
inductive Record.Tracked (r : Record) : Prop where
  | requested (pending : r.status = .pending) (history : r.history = [.timeDelayRequest])
      (message : r.message = none)
  | executed (route : Route) (approves : route.cancels = false)
      (status : r.status = .completed ∨ r.status = .failed) (history : r.history = route.actions)
      (message : r.message.isSome = route.isSigned)
  | cancelled (route : Route) (cancels : route.cancels = true)
      (status : r.status = .cancelled) (history : r.history = route.actions)
      (message : r.message.isSome = route.isSigned)

namespace Engine

variable {e e' e₀ : Engine} {c : Command} {cs : List Command} {reply : Reply} {id : TxId}
  {r : Record}

/-! ## One step -/

/-- Every record stands on a declared path of its operation type. -/
structure OnPaths (e : Engine) : Prop where
  sound : e.catalog.Sound
  records : ∀ id r, e.ledger.records.get? id = some r →
    r.Tracked ∧ e.catalog.permits r.operation r.history = true

/-- A pending record has been requested, and nothing else has happened to it. -/
theorem OnPaths.requested (h : e.OnPaths) (hp : e.ledger.HasPending id r) :
    r.history = [.timeDelayRequest] ∧ r.message = none := by
  cases (h.records id r hp.stored).1 with
  | requested _ history message => exact ⟨history, message⟩
  | executed _ _ status => rcases status with hs | hs <;> rw [hp.pending] at hs <;> cases hs
  | cancelled _ _ status => rw [hp.pending] at status; cases status

theorem tracked_executed {message : Option Digest} (route : Route)
    (approves : route.cancels = false) (history : r.history = route.actions)
    (hm : (message.or r.message).isSome = route.isSigned) : (e.executed r message).Tracked :=
  .executed route approves (executed_status e r message) history hm

theorem tracked_calledOff {actions : List Action} {message : Option Digest} (route : Route)
    (cancels : route.cancels = true) (history : r.history ++ actions = route.actions)
    (hm : (message.or r.message).isSome = route.isSigned) :
    (calledOff r actions message).Tracked :=
  .cancelled route cancels rfl history hm

/-- An accepted command leaves the records alone or stores one, and that stands on a declared path. -/
theorem Accepts.stored (h : e.Accepts c e' reply) (on : e.OnPaths) :
    e'.ledger.records = e.ledger.records ∨
      ∃ id r, (∀ j, e'.ledger.records.get? j = if j = id then some r else e.ledger.records.get? j) ∧
        r.Tracked ∧ e.catalog.permits r.operation r.history = true := by
  cases h with
  | request may room =>
    exact .inr ⟨_, _, fun j => Ledger.get?_opening, .requested rfl rfl rfl, may.onPath⟩
  | requestPeriod may room =>
    exact .inr ⟨_, _, fun j => Ledger.get?_opening, .requested rfl rfl rfl, may.onPath⟩
  | attachPayment may =>
    obtain ⟨history, message⟩ := on.requested may.pending
    have permitted := (on.records _ _ may.pending.stored).2
    exact .inr ⟨_, _, fun j => Ledger.get?_put, .requested may.pending.pending history message,
      permitted⟩
  | approve may =>
    obtain ⟨history, message⟩ := on.requested may.pending
    rw [approved_ledger]
    refine .inr ⟨_, _, fun j => Ledger.get?_close, tracked_executed .approval rfl ?_ ?_, may.onPath⟩
    · rw [Record.extended, history]
      rfl
    · rw [Record.extended, message]
      rfl
  | cancel may =>
    obtain ⟨history, message⟩ := on.requested may.pending
    refine .inr ⟨_, _, fun j => Ledger.get?_close, tracked_calledOff .cancellation rfl ?_ ?_,
      may.onPath⟩
    · rw [history]
      rfl
    · rw [message]
      rfl
  | approveSigned may fits =>
    obtain ⟨history, message⟩ := on.requested may.pending
    rw [approved_ledger]
    refine .inr ⟨_, _, fun j => Ledger.get?_close, tracked_executed (.signed .approve) rfl ?_ rfl,
      may.onPath⟩
    rw [Record.extended, history]
    rfl
  | cancelSigned may fits =>
    obtain ⟨history, -⟩ := on.requested may.pending
    refine .inr ⟨_, _, fun j => Ledger.get?_close, tracked_calledOff (.signed .cancel) rfl ?_ rfl,
      may.onPath⟩
    rw [history]
    rfl
  | requestSigned may fits room =>
    rw [requestedSigned_ledger]
    exact .inr ⟨_, _, fun j => Ledger.get?_close_opening,
      tracked_executed (.signed .requestAndApprove) rfl rfl rfl, may.onPath⟩
  | _ => exact .inl rfl

theorem Accepts.sound (h : e.Accepts c e' reply) (hc : e.catalog.Sound) : e'.catalog.Sound := by
  cases h with
  | registerOperation registered => exact hc.register registered
  | _ => exact hc

theorem Accepts.onPaths (h : e.Accepts c e' reply) (on : e.OnPaths) : e'.OnPaths := by
  refine ⟨h.sound on.sound, fun id r hr => ?_⟩
  -- The paths are asked for before the command; what is registered then stays.
  have before : r.Tracked ∧ e.catalog.permits r.operation r.history = true := by
    rcases h.stored on with hs | ⟨j, q, hs, stands⟩
    · rw [hs] at hr
      exact on.records id r hr
    · exact Ledger.forall_of_stored on.records stands hs id r hr
  exact ⟨before.1, h.grows.permits before.2⟩

theorem onPaths_step (hn : e.ledger.Numbered) (on : e.OnPaths) (c : Command) :
    (e.step c).1.OnPaths :=
  invariant_step Accepts.onPaths (fun _ h => ⟨h.sound, h.records⟩) hn on c

/-! ## Whole runs -/

theorem onPaths_run (hn : e.ledger.Numbered) (on : e.OnPaths) (cs : List Command) :
    (e.run cs).OnPaths :=
  invariant_run onPaths_step hn on cs

theorem onPaths_of_create {config : EngineConfig} {clock : UInt64} {sink : EventSink}
    {dispatcher : Dispatcher} (created : create config clock sink dispatcher = .ok e) :
    e.OnPaths := by
  have new := created_of_create created
  obtain ⟨⟨catalog, operation⟩, registered, hcatalog⟩ := map_eq_ok_iff.mp new.catalog
  refine ⟨?_, new.forall_records⟩
  rw [← hcatalog]
  exact Catalog.sound_empty.register registered

/-! ## Records at their end -/

/-- Where a record stands on the paths of its operation type, by its status and by its actions. -/
structure Conforms (entry : OperationEntry) (r : Record) : Prop where
  registered : entry.id = r.operation
  pending : r.status = .pending → r.history = [.timeDelayRequest] ∧
    ∃ p ∈ entry.paths, r.history <+: p.actions ∧ r.history ≠ p.actions
  terminal : r.status ≠ .pending → ∃ p ∈ entry.paths, r.history = p.actions
  cancelled : r.status = .cancelled ↔ r.history.getLast? = some .timeDelayCancel ∨
    r.history.getLast? = some .executeMetaCancel
  executed : r.status = .completed ∨ r.status = .failed ↔
    r.history.getLast? = some .timeDelayApprove ∨ r.history.getLast? = some .executeMetaApprove ∨
      r.history.getLast? = some .executeMetaRequestAndApprove
  message : r.message.isSome = true ↔ r.history.getLast? = some .executeMetaRequestAndApprove ∨
    r.history.getLast? = some .executeMetaApprove ∨ r.history.getLast? = some .executeMetaCancel

/-- A record that has only been requested has not reached the end of any path. -/
theorem conforms_of_requested {entry : OperationEntry} (registered : entry.id = r.operation)
    (flawless : ∀ p ∈ entry.paths, p.flaw? = none)
    (begins : ∃ p ∈ entry.paths, r.history <+: p.actions) (pending : r.status = .pending)
    (history : r.history = [.timeDelayRequest]) (message : r.message = none) :
    Conforms entry r where
  registered := registered
  pending _ := by
    obtain ⟨p, hp, hprefix⟩ := begins
    refine ⟨history, p, hp, hprefix, ?_⟩
    rw [history]
    exact WorkflowPath.singleton_ne_actions (flawless p hp)
  terminal h := absurd pending h
  cancelled := by simp [pending, history]
  executed := by simp [pending, history]
  message := by simp [message, history]

/-- A record that has been closed on a route has reached the end of a path. -/
theorem conforms_of_route {entry : OperationEntry} (registered : entry.id = r.operation)
    (flawless : ∀ p ∈ entry.paths, p.flaw? = none)
    (begins : ∃ p ∈ entry.paths, r.history <+: p.actions) (route : Route)
    (history : r.history = route.actions) (closed : r.status ≠ .pending)
    (cancelled : r.status = .cancelled ↔ route.cancels = true)
    (message : r.message.isSome = route.isSigned) : Conforms entry r := by
  have hlast : r.history.getLast? = some route.last := by rw [history, route.getLast?_actions]
  have executed : r.status = .completed ∨ r.status = .failed ↔ route.cancels = false := by
    rw [← Bool.not_eq_true, ← cancelled]
    cases hs : r.status with
    | pending => exact absurd hs closed
    | _ => decide
  refine ⟨registered, fun h => absurd h closed, fun _ => ?_, ?_, ?_, ?_⟩
  · obtain ⟨p, hp, hprefix⟩ := begins
    rw [history, route.actions_eq_concat] at hprefix ⊢
    exact ⟨p, hp, WorkflowPath.eq_actions_of_isTerminal (flawless p hp) hprefix
      route.isTerminal_last⟩
  · rw [hlast, cancelled, route.cancels_iff]
    simp only [Option.some.injEq]
  · rw [hlast, executed, route.approves_iff]
    simp only [Option.some.injEq]
  · rw [hlast, message, route.isSigned_iff]
    simp only [Option.some.injEq]

theorem Conforms.of_tracked {entry : OperationEntry} (registered : entry.id = r.operation)
    (flawless : ∀ p ∈ entry.paths, p.flaw? = none)
    (begins : ∃ p ∈ entry.paths, r.history <+: p.actions) (tracked : r.Tracked) :
    Conforms entry r := by
  cases tracked with
  | requested pending history message =>
    exact conforms_of_requested registered flawless begins pending history message
  | executed route approves status history message =>
    have hs : r.status ≠ .pending ∧ r.status ≠ .cancelled := by
      rcases status with hs | hs <;> rw [hs] <;> decide
    exact conforms_of_route registered flawless begins route history hs.1
      (by simp [hs.2, approves]) message
  | cancelled route cancels status history message =>
    have hs : r.status ≠ .pending := by rw [status]; decide
    exact conforms_of_route registered flawless begins route history hs
      (by simp [status, cancels]) message

/-- Whatever paths are declared, a pending record of a reached engine has been requested and begins
one of those of its operation type, a closed one has followed one of them to its end, and the last
action says how. -/
theorem records_conform {config : EngineConfig} {clock : UInt64} {sink : EventSink}
    {dispatcher : Dispatcher} (created : create config clock sink dispatcher = .ok e₀)
    (reached : Reaches e₀ e) (id : TxId) (r : Record)
    (stored : e.ledger.records.get? id = some r) :
    ∃ entry, e.catalog.lookup r.operation = .ok entry ∧ Conforms entry r := by
  obtain ⟨cs, rfl⟩ := reaches_iff.mp reached
  have on := onPaths_run (numbered_of_create created) (onPaths_of_create created) cs
  obtain ⟨tracked, permitted⟩ := on.records id r stored
  obtain ⟨entry, found, begins⟩ := Catalog.permits_eq_true_iff.mp permitted
  obtain ⟨registered, flawless⟩ := on.sound.of_lookup found
  exact ⟨entry, found, .of_tracked registered flawless begins tracked⟩

/-- The record that the payload approves has followed the path of a signed approval. -/
theorem sample_conforms : ∃ e₀ r entry p,
    create Sample.config 100 (.memory []) .empty = .ok e₀ ∧
    (e₀.run Sample.commands).ledger.records.get? Sample.txId = some r ∧ r.status = .completed ∧
    (e₀.run Sample.commands).catalog.lookup r.operation = .ok entry ∧ p ∈ entry.paths ∧
    r.history = p.actions := by
  obtain ⟨e₀, _, created, -, completed, -, -⟩ := Sample.exists_completed
  obtain ⟨r, hr, hs⟩ := Option.map_eq_some_iff.mp completed
  obtain ⟨entry, found, conforms⟩ :=
    records_conform created (reaches_iff.mpr ⟨Sample.commands, rfl⟩) Sample.txId r hr
  obtain ⟨p, hp, history⟩ := conforms.terminal (by rw [hs]; decide)
  exact ⟨e₀, r, entry, p, created, hr, hs, found, hp, history⟩

end Engine

end Countersign
