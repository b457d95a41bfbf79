import Countersign.Proofs.Conformance
import Countersign.Proofs.Independence
import Countersign.Proofs.Roles

/-!
# How a pending record can be closed

A pending record has been requested and nothing else (`OnPaths.requested`), and every entry point that
closes one appends actions of which only the last is terminal. So it is enough for the engine to ask
that the actions begin a declared path: they are the whole path (`OnPaths.permits_exit_iff`). On the
delay track this says exactly when an approval or a cancellation is accepted
(`delay_track_accepts_iff`). On both tracks it says which records have a way out: a type may be
registered with paths that no entry point follows to their end, and its records stay pending
(`exits_are_declared_paths`).
-/

namespace Countersign

open MetaTx (MetaStep)

/-! ## Declared paths -/

namespace Catalog

variable {c : Catalog} {operation : OperationType} {s : List Action} {a : Action}

/-- The operation type declares a path of exactly these actions. -/
def Declares (c : Catalog) (operation : OperationType) (actions : List Action) : Prop :=
  ∃ entry, c.lookup operation = .ok entry ∧ ∃ p ∈ entry.paths, p.actions = actions

/-- What ends with a terminal action is permitted only as a whole path. -/
theorem Sound.permits_concat_iff (hc : c.Sound) (terminal : a.isTerminal = true) :
    c.permits operation (s ++ [a]) = true ↔ c.Declares operation (s ++ [a]) := by
  rw [permits_eq_true_iff, Declares]
  refine exists_congr fun entry => and_congr_right fun found => exists_congr fun p =>
    and_congr_right fun hp => ⟨fun begins => ?_, fun same => ?_⟩
  · exact (WorkflowPath.eq_actions_of_isTerminal ((hc.of_lookup found).2 p hp) begins terminal).symm
  · exact same ▸ List.prefix_refl _

end Catalog

/-! ## Exits -/

/-- The ways out of a pending record. -/
inductive Exit where
  | approval
  | cancellation
  | signedApproval
  | signedCancellation

namespace Exit

/-- The action for which the workflow is asked. -/
def action : Exit → Action
  | approval => .timeDelayApprove
  | cancellation => .timeDelayCancel
  | signedApproval => MetaStep.approve.signing
  | signedCancellation => MetaStep.cancel.signing

/-- The actions that come with it. -/
def rest : Exit → List Action
  | approval | cancellation => []
  | signedApproval => [MetaStep.approve.executing]
  | signedCancellation => [MetaStep.cancel.executing]

/-- The whole path of a record that takes the exit. -/
def path (x : Exit) : List Action := .timeDelayRequest :: x.action :: x.rest

/-- A closed record that has only been requested at first has taken some exit. -/
theorem path_of_route {route : Route} (begins : [.timeDelayRequest] <+: route.actions) :
    ∃ x : Exit, route.actions = x.path := by
  cases route with
  | approval => exact ⟨approval, rfl⟩
  | cancellation => exact ⟨cancellation, rfl⟩
  | signed step =>
    cases step with
    | approve => exact ⟨signedApproval, rfl⟩
    | cancel => exact ⟨signedCancellation, rfl⟩
    | requestAndApprove => exact absurd begins (by decide)

theorem path_eq_concat (x : Exit) : ∃ s a, x.path = s ++ [a] ∧ a.isTerminal = true := by
  cases x with
  | approval => exact ⟨[.timeDelayRequest], _, rfl, rfl⟩
  | cancellation => exact ⟨[.timeDelayRequest], _, rfl, rfl⟩
  | signedApproval => exact ⟨[.timeDelayRequest, .signMetaApprove], _, rfl, rfl⟩
  | signedCancellation => exact ⟨[.timeDelayRequest, .signMetaCancel], _, rfl, rfl⟩

end Exit

theorem Catalog.Sound.permits_path_iff {c : Catalog} {operation : OperationType} (hc : c.Sound)
    (x : Exit) : c.permits operation x.path = true ↔ c.Declares operation x.path := by
  obtain ⟨s, a, hpath, terminal⟩ := x.path_eq_concat
  rw [hpath]
  exact hc.permits_concat_iff terminal

/-- A type with the standard paths leaves every exit open. -/
theorem Catalog.declares_of_standardSet {c : Catalog} {operation : OperationType}
    {entry : OperationEntry} (found : c.lookup operation = .ok entry)
    (standard : entry.paths = WorkflowPath.standardSet) (x : Exit) : c.Declares operation x.path := by
  refine ⟨entry, found, ?_⟩
  rw [standard]
  cases x <;> decide

namespace Engine

variable {e e' e₀ : Engine} {c : Command} {k : Closing} {id : TxId} {caller : Identity}
  {r final : Record}

/-- A pending record passes the workflow check of an exit exactly if its type declares the path. -/
theorem OnPaths.permits_exit_iff (on : e.OnPaths) (pending : e.ledger.HasPending id r) (x : Exit) :
    e.catalog.permits r.operation (r.history ++ x.action :: x.rest) = true ↔
      e.catalog.Declares r.operation x.path := by
  rw [(on.requested pending).1]
  exact on.sound.permits_path_iff x

/-! ## Closed records -/

theorem settledRecord_isTerminal : (e.settledRecord k r).status.isTerminal = true := by
  unfold settledRecord
  split
  · rcases executed_status e (r.extended k.actions) k.message with h | h <;> rw [h] <;> rfl
  · rfl

/-- A record is closed, stored like this, and not among the pending ones. -/
structure Closed (e : Engine) (id : TxId) (r : Record) : Prop where
  terminal : r.status.isTerminal = true
  stored : e.ledger.get id = .ok r
  unlisted : id ∉ e.ledger.pendingIds

theorem closed_settled : (e.settled k r).Closed k.id (e.settledRecord k r) where
  terminal := settledRecord_isTerminal
  stored := by
    rw [Ledger.get, settled_ledger, Ledger.get?_close, if_pos rfl]
  unlisted := by
    rw [settled_ledger, Ledger.pendingIds, SortedSet.mem_toList, Ledger.close,
      SortedSet.contains_erase_self]
    exact Bool.false_ne_true

/-- An accepted closing leaves the record that it names closed as it answers. -/
theorem closed_of_step (closing : c.isClosing = true) (subject : c.subject? = some id)
    (accepted : e.step c = (e', .ok (.closed final))) : e'.Closed id final := by
  obtain ⟨k, r, may, rfl, hfinal⟩ := (step_eq_ok_iff.mp accepted).maySettle closing
  cases hfinal
  obtain rfl : id = k.id := Option.some.inj (subject.symm.trans may.asked.1)
  exact closed_settled

/-! ## The delay track -/

/-- A pending record that a caller may close on the delay track by an action, as far as the grants and
the paths go. -/
structure Due (e : Engine) (id : TxId) (caller : Identity) (action : Action) (r : Record) : Prop where
  stored : e.ledger.get id = .ok r
  pending : r.status = .pending
  granted : e.access.allows caller r.handler action = true
  declared : e.catalog.Declares r.operation [.timeDelayRequest, action]

/-- A cancellation is in time: at any time, or from the release on. -/
def InWindow (e : Engine) (r : Record) : Prop :=
  e.timelock.cancelWindow r.operation = .anytime ∨ r.releaseTime ≤ e.clock

theorem hasPending_iff : e.ledger.HasPending id r ↔ e.ledger.get id = .ok r ∧ r.status = .pending := by
  rw [Ledger.get]
  constructor
  · rintro ⟨stored, pending⟩
    rw [stored]
    exact ⟨rfl, pending⟩
  · rintro ⟨stored, pending⟩
    refine ⟨?_, pending⟩
    split at stored
    · next q hq =>
      cases stored
      exact hq
    · cases stored

theorem inWindow_iff : e.InWindow r ↔
    (e.timelock.cancelWindow r.operation = .afterRelease → r.releaseTime ≤ e.clock) := by
  rw [InWindow]
  cases e.timelock.cancelWindow r.operation <;> simp

/-- On the delay track an exit has one action, and that is permitted if its path is declared. -/
theorem OnPaths.due_iff (on : e.OnPaths) (x : Exit) (single : x.rest = []) :
    e.Due id caller x.action r ↔ e.ledger.HasPending id r ∧
      e.access.allows caller r.handler x.action = true ∧
      e.catalog.permits r.operation (r.history ++ [x.action]) = true := by
  have path : x.path = [.timeDelayRequest, x.action] := by rw [Exit.path, single]
  have permitted (pending : e.ledger.HasPending id r) :
      e.catalog.permits r.operation (r.history ++ [x.action]) = true ↔
        e.catalog.Declares r.operation [.timeDelayRequest, x.action] := by
    have exits := on.permits_exit_iff pending x
    rwa [single, path] at exits
  constructor
  · rintro ⟨stored, status, granted, declared⟩
    have pending := hasPending_iff.mpr ⟨stored, status⟩
    exact ⟨pending, granted, (permitted pending).mpr declared⟩
  · rintro ⟨pending, granted, onPath⟩
    obtain ⟨stored, status⟩ := hasPending_iff.mp pending
    exact ⟨stored, status, granted, (permitted pending).mp onPath⟩

theorem OnPaths.mayApprove_iff (on : e.OnPaths) : e.MayApprove id caller r ↔
    e.Due id caller .timeDelayApprove r ∧ r.releaseTime ≤ e.clock := by
  constructor
  · rintro ⟨pending, granted, onPath, released⟩
    exact ⟨(on.due_iff .approval rfl).mpr ⟨pending, granted, onPath⟩, released⟩
  · rintro ⟨due, released⟩
    obtain ⟨pending, granted, onPath⟩ := (on.due_iff .approval rfl).mp due
    exact ⟨pending, granted, onPath, released⟩

theorem OnPaths.mayCancel_iff (on : e.OnPaths) : e.MayCancel id caller r ↔
    e.Due id caller .timeDelayCancel r ∧ e.InWindow r := by
  constructor
  · rintro ⟨pending, granted, onPath, window⟩
    exact ⟨(on.due_iff .cancellation rfl).mpr ⟨pending, granted, onPath⟩, inWindow_iff.mpr window⟩
  · rintro ⟨due, window⟩
    obtain ⟨pending, granted, onPath⟩ := (on.due_iff .cancellation rfl).mp due
    exact ⟨pending, granted, onPath, inWindow_iff.mp window⟩

theorem approve_accepted_iff :
    (∃ final, (e.approve id caller).2 = .ok final) ↔ ∃ r, e.MayApprove id caller r := by
  constructor
  · rintro ⟨final, h⟩
    rcases approve_cases e id caller with may | ⟨fault, rejected⟩
    · exact may
    · rw [rejected] at h
      cases h
  · rintro ⟨r, may⟩
    rw [approve_ok may]
    exact ⟨_, rfl⟩

theorem cancel_accepted_iff :
    (∃ final, (e.cancel id caller).2 = .ok final) ↔ ∃ r, e.MayCancel id caller r := by
  constructor
  · rintro ⟨final, h⟩
    rcases cancel_cases e id caller with may | ⟨fault, rejected⟩
    · exact may
    · rw [rejected] at h
      cases h
  · rintro ⟨r, may⟩
    rw [cancel_ok may]
    exact ⟨_, rfl⟩

/-- In every reached engine a call on the delay track is accepted exactly if the record is pending, the
caller is granted the action on the record's function, the type declares the path of the request and
this action, and the time has come. The record is then closed. -/
theorem delay_track_accepts_iff {config : EngineConfig} {clock : UInt64} {sink : EventSink}
    {dispatcher : Dispatcher} (created : create config clock sink dispatcher = .ok e₀)
    (reached : Reaches e₀ e) (id : TxId) (caller : Identity) :
    ((∃ final, (e.approve id caller).2 = .ok final) ↔
      ∃ r, e.Due id caller .timeDelayApprove r ∧ r.releaseTime ≤ e.clock) ∧
    ((∃ final, (e.cancel id caller).2 = .ok final) ↔
      ∃ r, e.Due id caller .timeDelayCancel r ∧ e.InWindow r) ∧
    ∀ e' final, e.approve id caller = (e', .ok final) ∨ e.cancel id caller = (e', .ok final) →
      e'.Closed id final := by
  obtain ⟨cs, rfl⟩ := reaches_iff.mp reached
  have on := onPaths_run (numbered_of_create created) (onPaths_of_create created) cs
  refine ⟨?approved, ?cancelled, ?closed⟩
  case approved => exact approve_accepted_iff.trans (exists_congr fun r => on.mayApprove_iff)
  case cancelled => exact cancel_accepted_iff.trans (exists_congr fun r => on.mayCancel_iff)
  case closed =>
    rintro e' final (h | h)
    · exact closed_of_step (c := .approve id caller) rfl rfl (by rw [step, h]; rfl)
    · exact closed_of_step (c := .cancel id caller) rfl rfl (by rw [step, h]; rfl)

end Engine

namespace Sample

/-- The payment is requested, and its release has come. -/
def released : List Command := opening ++ [.setClock 160]

theorem releases : holds released (fun e =>
    match e.ledger.records.get? txId with
    | some r => decide (r.status = .pending ∧
        e.access.allows owner r.handler .timeDelayApprove = true ∧ r.releaseTime ≤ e.clock ∧
        e.catalog.entries.get? r.operation = some ⟨pay, "PAY", WorkflowPath.standardSet⟩)
    | none => false) = true := by
  decide +kernel

theorem due_of_released {e₀ : Engine}
    (created : Engine.create config 100 (.memory []) .empty = .ok e₀) :
    ∃ r, (e₀.run released).Due txId owner .timeDelayApprove r ∧
      r.releaseTime ≤ (e₀.run released).clock := by
  obtain ⟨e, created', h⟩ := exists_of_holds releases
  cases created.symm.trans created'
  split at h
  · next r stored =>
    obtain ⟨status, granted, released, found⟩ := of_decide_eq_true h
    obtain ⟨get, pending⟩ := Engine.hasPending_iff.mp ⟨stored, status⟩
    have declared :=
      Catalog.declares_of_standardSet (Catalog.lookup_eq_ok_iff.mpr found) rfl .approval
    exact ⟨r, ⟨get, pending, granted, declared⟩, released⟩
  · cases h

end Sample

namespace Engine

variable {e e' e₀ : Engine} {c : Command} {cs : List Command} {id : TxId} {r : Record} {x : Exit}

/-- The owner's approval of a released payment is accepted and closes it. -/
theorem sample_approved : ∃ e₀ e' final, create Sample.config 100 (.memory []) .empty = .ok e₀ ∧
    (e₀.run Sample.released).approve Sample.txId Sample.owner = (e', .ok final) ∧
    e'.Closed Sample.txId final := by
  obtain ⟨e₀, created, -⟩ := Sample.exists_of_holds Sample.releases
  obtain ⟨r, due, released⟩ := Sample.due_of_released created
  obtain ⟨approved, -, closed⟩ := delay_track_accepts_iff created
    (reaches_iff.mpr ⟨Sample.released, rfl⟩) Sample.txId Sample.owner
  obtain ⟨final, accepted⟩ := approved.mpr ⟨r, due, released⟩
  have answer : (e₀.run Sample.released).approve Sample.txId Sample.owner =
      (((e₀.run Sample.released).approve Sample.txId Sample.owner).1, .ok final) := by
    rw [← accepted]
  exact ⟨e₀, _, final, created, answer, closed _ _ (.inl answer)⟩

/-! ## Both tracks -/

/-- All that is asked of a command that takes a pending record out by an exit, except the path. -/
inductive Ready (e : Engine) (id : TxId) (r : Record) : Exit → Command → Prop where
  | approval {caller : Identity}
      (granted : e.access.allows caller r.handler .timeDelayApprove = true)
      (released : r.releaseTime ≤ e.clock) : Ready e id r .approval (.approve id caller)
  | cancellation {caller : Identity}
      (granted : e.access.allows caller r.handler .timeDelayCancel = true)
      (window : e.InWindow r) : Ready e id r .cancellation (.cancel id caller)
  | signedApproval {tx : MetaTx.Signed} {relay : MetaTx.Relay} (subject : tx.snapshot.txId = id)
      (signed : e.SignedFor .approve tx relay) (fits : e.HasNonce tx.terms.signer)
      (snapshot : MetaTx.Snapshot.ofRecord r = tx.snapshot)
      (served : e.Serves tx.terms.handler r.operation MetaStep.approve.pair) :
      Ready e id r .signedApproval (.approveSigned tx relay)
  | signedCancellation {tx : MetaTx.Signed} {relay : MetaTx.Relay} (subject : tx.snapshot.txId = id)
      (signed : e.SignedFor .cancel tx relay) (fits : e.HasNonce tx.terms.signer)
      (snapshot : MetaTx.Snapshot.ofRecord r = tx.snapshot)
      (served : e.Serves tx.terms.handler r.operation MetaStep.cancel.pair) :
      Ready e id r .signedCancellation (.cancelSigned tx relay)

theorem Ready.maySettle (ready : e.Ready id r x c) (pending : e.ledger.HasPending id r)
    (permitted : e.catalog.permits r.operation (r.history ++ x.action :: x.rest) = true) :
    ∃ k, e.MaySettle c k r ∧ k.id = id := by
  cases ready with
  | approval granted released => exact ⟨_, .approve ⟨pending, granted, permitted, released⟩, rfl⟩
  | cancellation granted window =>
    exact ⟨_, .cancel ⟨pending, granted, permitted, inWindow_iff.mp window⟩, rfl⟩
  | signedApproval subject signed fits snapshot served =>
    subst subject
    exact ⟨_, .approveSigned ⟨signed, pending, snapshot, served, permitted⟩ fits, rfl⟩
  | signedCancellation subject signed fits snapshot served =>
    subst subject
    exact ⟨_, .cancelSigned ⟨signed, pending, snapshot, served, permitted⟩ fits, rfl⟩

/-- On the delay track a grant and the release of the record are all that an exit asks for. -/
theorem exists_ready {caller : Identity} (single : x.rest = [])
    (granted : e.access.allows caller r.handler x.action = true) (released : r.releaseTime ≤ e.clock) :
    ∃ c, e.Ready id r x c := by
  cases x with
  | approval => exact ⟨_, .approval granted released⟩
  | cancellation => exact ⟨_, .cancellation granted (.inr released)⟩
  | signedApproval | signedCancellation => cases single

theorem Ready.closes (ready : e.Ready id r x c) (pending : e.ledger.HasPending id r)
    (permitted : e.catalog.permits r.operation (r.history ++ x.action :: x.rest) = true) :
    ∃ e' final, e.step c = (e', .ok (.closed final)) ∧ e'.Closed id final := by
  obtain ⟨k, may, rfl⟩ := ready.maySettle pending permitted
  exact ⟨_, _, may.step_eq, closed_settled⟩

/-- There is an owner, or else a newcomer can become it. -/
theorem HasOwnerRole.exists_member {role : Role} (h : e.HasOwnerRole role) (newcomer : Identity) :
    ∃ cs access caller role', e.run cs = { e with access } ∧
      access.functions = e.access.functions ∧ access.roles.get? RoleId.owner = some role' ∧
      role'.members.contains caller = true := by
  cases empty : role.members.isEmpty with
  | false =>
    obtain ⟨caller, member⟩ := SortedSet.isEmpty_eq_false_iff.mp empty
    exact ⟨[], e.access, caller, role, rfl, rfl, h.stored, member⟩
  | true =>
    have nobody : role.members = .empty := SortedSet.isEmpty_iff.mp empty
    have absent : role.members.contains newcomer = false := by
      rw [nobody]
      exact SortedSet.contains_empty
    have room : role.isFull = false := by
      rw [Role.isFull_eq_false_iff, nobody, h.maxMembers]
      exact Nat.zero_lt_one
    have joined := (AccessRegistry.Accepts.addMember h.stored absent room).step_eq
    refine ⟨[.access (.addMember RoleId.owner newcomer)], _, newcomer, _,
      congrArg Prod.fst (Accepts.access rfl joined).step_eq, rfl, SortedMap.get?_insert_self,
      SortedSet.contains_insert_self⟩

/-- The owner can be granted what a function supports, and the clock be set. -/
theorem HasOwnerRole.exists_granted {role : Role} (h : e.HasOwnerRole role) (newcomer : Identity)
    {s : Selector} {schema : FunctionSchema} {a : Action}
    (declared : e.access.functions.get? s = some schema) (supported : schema.supports a = true)
    (time : UInt64) : ∃ cs access caller, e.run cs = { e with access, clock := time } ∧
      access.allows caller s a = true := by
  obtain ⟨cs, access, caller, role', hrun, functions, stored, member⟩ := h.exists_member newcomer
  rw [← functions] at declared
  have granted := (AccessRegistry.Accepts.grant stored declared
    (List.forall_mem_singleton.mpr supported)).step_eq
  let e' : Engine := { e with access }
  have step : (e'.step (.access (.grant RoleId.owner s [a]))).1 =
      { e with access := access.granting RoleId.owner s [a] } :=
    congrArg Prod.fst (Accepts.access rfl granted).step_eq
  refine ⟨cs ++ [.access (.grant RoleId.owner s [a]), .setClock time],
    access.granting RoleId.owner s [a], caller, ?run, ?allowed⟩
  case run =>
    rw [run_append, hrun, run_cons, step]
    rfl
  case allowed =>
    refine AccessRegistry.allows_eq_true_iff.mpr ⟨RoleId.owner, ?_, ?_⟩
    · exact (AccessRegistry.isMember_of_role stored).trans member
    · rw [AccessRegistry.grants?_granting, if_pos ⟨rfl, rfl, List.mem_singleton_self a⟩]

/-- What a registered type declares later on it declares now. -/
theorem Grows.declares (grows : Grows e e') {operation : OperationType} {entry : OperationEntry}
    {actions : List Action} (registered : e.catalog.lookup operation = .ok entry)
    (declares : e'.catalog.Declares operation actions) : e.catalog.Declares operation actions := by
  obtain ⟨entry', found, declared⟩ := declares
  have later := grows.operations operation entry (Catalog.lookup_eq_ok_iff.mp registered)
  obtain rfl : entry = entry' :=
    Option.some.inj (later.symm.trans (Catalog.lookup_eq_ok_iff.mp found))
  exact ⟨entry, registered, declared⟩

/-- A record that is closed at some time has taken an exit that its type declared all along. -/
theorem OnPaths.exit_of_closed (on : e.OnPaths) (hn : e.ledger.Numbered)
    (pending : e.ledger.HasPending id r) (cs : List Command) {r' : Record} (later : r.Later r')
    (stored : (e.run cs).ledger.records.get? id = some r') (closed : r'.status ≠ .pending) :
    ∃ x : Exit, e.catalog.Declares r.operation x.path := by
  obtain ⟨entry, registered, -⟩ :=
    Catalog.permits_eq_true_iff.mp (on.records id r pending.stored).2
  have on' := onPaths_run hn on cs
  obtain ⟨tracked, permitted⟩ := on'.records id r' stored
  have begins : [.timeDelayRequest] <+: r'.history := by
    rw [← (on.requested pending).1]
    exact later.history
  have left : ∃ x : Exit, r'.history = x.path := by
    cases tracked with
    | requested status => exact absurd status closed
    | executed route _ _ history | cancelled route _ _ history =>
      rw [history] at begins ⊢
      exact Exit.path_of_route begins
  obtain ⟨x, history⟩ := left
  have operation : r'.operation = r.operation := congrArg Request.operation later.request
  rw [history, operation, on'.sound.permits_path_iff] at permitted
  exact ⟨x, (grows_run e cs).declares registered permitted⟩

/-- A pending record of a reached engine passes the workflow check of an entry point exactly if its
type declares the path that ends there. Then a command that is ready for the entry point closes the
record, and on the delay track one can be made ready if the record's function supports the action. If
the type declares none of these paths, the record stays pending for ever. -/
theorem exits_are_declared_paths {config : EngineConfig} {clock : UInt64} {sink : EventSink}
    {dispatcher : Dispatcher} (created : create config clock sink dispatcher = .ok e₀)
    (reached : Reaches e₀ e) (pending : e.ledger.HasPending id r) :
    (∀ x : Exit, e.requireWorkflow r.operation r.history x.action x.rest = .ok () ↔
      e.catalog.Declares r.operation x.path) ∧
    (∀ x c, e.Ready id r x c → e.catalog.Declares r.operation x.path →
      ∃ e' final, e.step c = (e', .ok (.closed final)) ∧ e'.Closed id final) ∧
    (∀ (x : Exit) schema, x.rest = [] → e.catalog.Declares r.operation x.path →
      e.access.functions.get? r.handler = some schema → schema.supports x.action = true →
      ∃ cs final, (e.run cs).Closed id final) ∧
    ((∀ x : Exit, ¬ e.catalog.Declares r.operation x.path) →
      ∀ cs, (e.run cs).ledger.statusAt id = some .pending) := by
  obtain ⟨cs, rfl⟩ := reaches_iff.mp reached
  have on := onPaths_run (numbered_of_create created) (onPaths_of_create created) cs
  refine ⟨?workflow, ?closes, ?delayed, ?stuck⟩
  case workflow =>
    intro x
    unfold requireWorkflow
    exact ensure_eq_ok_iff.trans (on.permits_exit_iff pending x)
  case closes =>
    intro x c ready declared
    exact ready.closes pending ((on.permits_exit_iff pending x).mpr declared)
  case delayed =>
    intro x schema single declares declared supported
    obtain ⟨role, owned⟩ := exists_ownerRole created cs
    obtain ⟨ds, access, caller, hrun, granted⟩ :=
      owned.exists_granted r.request.requester declared supported r.releaseTime
    let waited : Engine := { e₀.run cs with access, clock := r.releaseTime }
    obtain ⟨c, ready⟩ : ∃ c, waited.Ready id r x c :=
      exists_ready single granted (UInt64.le_refl _)
    obtain ⟨e', final, accepted, closed⟩ :=
      ready.closes pending ((on.permits_exit_iff pending x).mpr declares)
    refine ⟨ds ++ [c], final, ?_⟩
    rw [run_concat, hrun, accepted]
    exact closed
  case stuck =>
    intro none ds
    have hn := (isNew_of_create created).numbered cs
    obtain ⟨r', stored, later⟩ := later_run hn ds pending.stored
    by_cases status : r'.status = .pending
    · exact Ledger.HasPending.statusAt ⟨stored, status⟩
    · obtain ⟨x, declared⟩ := on.exit_of_closed hn pending ds later stored status
      exact absurd declared (none x)

end Engine

/-!
## A record without an exit

The path is flawless, but what its signer signs is an approval and what its relayer executes is a
cancellation, and no entry point does both.
-/

namespace Sample

open Engine (delayActions metaActions)

def mixedPath : WorkflowPath := ⟨"mixed", [.timeDelayRequest, .signMetaApprove, .executeMetaCancel]⟩

/-- A payment whose type declares that path and no other. -/
def stuck : List Command :=
  [.registerOperation pay "PAY" [mixedPath],
    .access (.registerFunction function),
    .access (.grant RoleId.owner function.selector (delayActions ++ metaActions)),
    .request function.selector request]

theorem sticks : holds stuck (fun e =>
    match e.ledger.records.get? txId with
    | some r => decide (r.status = .pending ∧ r.operation = pay ∧
        e.catalog.entries.get? pay = some ⟨pay, "PAY", [mixedPath]⟩)
    | none => false) = true := by
  decide +kernel

theorem exists_stuck : ∃ e₀ r, Engine.create config 100 (.memory []) .empty = .ok e₀ ∧
    (e₀.run stuck).ledger.HasPending txId r ∧ r.operation = pay ∧
    (e₀.run stuck).catalog.lookup pay = .ok ⟨pay, "PAY", [mixedPath]⟩ := by
  obtain ⟨e₀, created, h⟩ := exists_of_holds sticks
  split at h
  · next r stored =>
    obtain ⟨status, operation, found⟩ := of_decide_eq_true h
    exact ⟨e₀, r, created, ⟨stored, status⟩, operation, Catalog.lookup_eq_ok_iff.mpr found⟩
  · cases h

/-- A type that declares nothing but the path has no exit. -/
theorem not_declares_of_mixedPath {c : Catalog} (found : c.lookup pay = .ok ⟨pay, "PAY", [mixedPath]⟩)
    (x : Exit) : ¬ c.Declares pay x.path := by
  rintro ⟨entry, registered, p, hp, same⟩
  rw [found] at registered
  cases registered
  rw [List.mem_singleton.mp hp] at same
  revert same
  cases x <;> decide

theorem ready_of_restored {e₀ : Engine}
    (created : Engine.create config 100 (.memory []) .empty = .ok e₀) :
    ∃ r, (e₀.run restored).ledger.HasPending txId r ∧
      (e₀.run restored).Ready txId r .signedApproval signedApproval ∧
      (e₀.run restored).requireWorkflow r.operation r.history Exit.signedApproval.action
        Exit.signedApproval.rest = .ok () := by
  obtain ⟨e, reply, created', accepted, -⟩ := exists_completed
  cases created.symm.trans created'
  obtain ⟨e', accepts⟩ : ∃ e', (e₀.run restored).Accepts (.approveSigned payload relay) e' reply :=
    ⟨_, Engine.step_eq_ok_iff.mp (Engine.step_eq_of_ok accepted)⟩
  cases accepts with
  | approveSigned may fits =>
    exact ⟨_, may.pending,
      .signedApproval rfl may.toSignedFor fits may.snapshot may.served,
      ensure_eq_ok_iff.mpr may.onPath⟩

theorem supports : holds released (fun e =>
    match e.ledger.records.get? txId with
    | some r => (e.access.functions.get? r.handler).any (fun schema =>
        schema.supports .timeDelayApprove)
    | none => false) = true := by
  decide +kernel

theorem supports_of_released {e₀ : Engine} {r : Record}
    (created : Engine.create config 100 (.memory []) .empty = .ok e₀)
    (pending : (e₀.run released).ledger.HasPending txId r) :
    ∃ schema, (e₀.run released).access.functions.get? r.handler = some schema ∧
      schema.supports .timeDelayApprove = true := by
  obtain ⟨e, created', h⟩ := exists_of_holds supports
  cases created.symm.trans created'
  rw [pending.stored] at h
  exact (Option.any_eq_true _ _).mp h

end Sample

namespace Engine

/-- The type is accepted and its record is pending, but every entry point refuses its workflow. -/
theorem sample_without_exit : ∃ e₀ r,
    create Sample.config 100 (.memory []) .empty = .ok e₀ ∧
    let e := e₀.run Sample.stuck
    e.ledger.HasPending Sample.txId r ∧
    ∀ x : Exit, e.requireWorkflow r.operation r.history x.action x.rest =
      .error (.workflowViolation r.operation x.action) := by
  obtain ⟨e₀, r, created, pending, operation, found⟩ := Sample.exists_stuck
  refine ⟨e₀, r, created, pending, fun x => ?_⟩
  have on := onPaths_run (numbered_of_create created) (onPaths_of_create created) Sample.stuck
  unfold requireWorkflow
  refine ensure_eq_error_iff.mpr ⟨fun permitted => ?_, rfl⟩
  have declared := (on.permits_exit_iff pending x).mp permitted
  rw [operation] at declared
  exact Sample.not_declares_of_mixedPath found x declared

/-- The owner's approval of the released payment closes it, and so does the relayed payload without
waiting. The record without an exit is never closed. -/
theorem sample_exits : ∃ e₀, create Sample.config 100 (.memory []) .empty = .ok e₀ ∧
    (∃ r e' final, (e₀.run Sample.released).Ready Sample.txId r .approval
        (.approve Sample.txId Sample.owner) ∧
      (e₀.run Sample.released).step (.approve Sample.txId Sample.owner) =
        (e', .ok (.closed final)) ∧ e'.Closed Sample.txId final) ∧
    (∃ cs final, ((e₀.run Sample.released).run cs).Closed Sample.txId final) ∧
    (∃ r e' final, (e₀.run Sample.restored).Ready Sample.txId r .signedApproval
        Sample.signedApproval ∧
      (e₀.run Sample.restored).step Sample.signedApproval = (e', .ok (.closed final)) ∧
      e'.Closed Sample.txId final) ∧
    ∀ cs, ((e₀.run Sample.stuck).run cs).ledger.statusAt Sample.txId = some .pending := by
  obtain ⟨e₀, r, created, stuck, operation, found⟩ := Sample.exists_stuck
  obtain ⟨q, due, released⟩ := Sample.due_of_released created
  have pending := hasPending_iff.mpr ⟨due.stored, due.pending⟩
  obtain ⟨-, closes, delayed, -⟩ :=
    exits_are_declared_paths created (reaches_iff.mpr ⟨Sample.released, rfl⟩) pending
  refine ⟨e₀, created, ?approved, ?closable, ?signed, ?stuck⟩
  case approved =>
    have ready : (e₀.run Sample.released).Ready Sample.txId q .approval _ :=
      .approval due.granted released
    obtain ⟨e', final, accepted, closed⟩ := closes .approval _ ready due.declared
    exact ⟨q, e', final, ready, accepted, closed⟩
  case closable =>
    obtain ⟨schema, declared, supported⟩ := Sample.supports_of_released created pending
    exact delayed .approval schema rfl due.declared declared supported
  case signed =>
    obtain ⟨q, pending, ready, permitted⟩ := Sample.ready_of_restored created
    obtain ⟨workflow, closes, -⟩ :=
      exits_are_declared_paths created (reaches_iff.mpr ⟨Sample.restored, rfl⟩) pending
    obtain ⟨e', final, accepted, closed⟩ := closes _ _ ready ((workflow _).mp permitted)
    exact ⟨q, e', final, ready, accepted, closed⟩
  case stuck =>
    obtain ⟨-, -, -, never⟩ :=
      exits_are_declared_paths created (reaches_iff.mpr ⟨Sample.stuck, rfl⟩) stuck
    refine never fun x declared => ?_
    rw [operation] at declared
    exact Sample.not_declares_of_mixedPath found x declared

end Engine

end Countersign
