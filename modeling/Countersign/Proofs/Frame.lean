import Countersign.Proofs.Submission

/-!
# What a command leaves alone

An accepted command stores no record, a new one, or the pending one that it names, with changes to
the fields it is about (`Stores`, `Record.ChangedBy`). So a closed record stays as it is, and what
was asked for and when never changes (`Record.Later`). Lifecycle commands keep the registrations, and
registrations keep everything else (`frame_step`).
-/

namespace Countersign

/-! ## Kinds of commands -/

namespace Command

/-- What is registered with the engine: roles, functions, grants, operation types and windows. -/
def isRegistration : Command → Bool
  | access _ | registerOperation .. | setCancelWindow .. => true
  | _ => false

/-- A call of one of the entry points that work on records. -/
def isLifecycle : Command → Bool
  | request .. | requestPeriod .. | attachPayment .. | approve .. | cancel .. | approveSigned ..
  | cancelSigned .. | requestSigned .. => true
  | _ => false

/-- The number of the record that a command names. -/
def subject? : Command → Option TxId
  | attachPayment id _ _ | approve id _ | cancel id _ => some id
  | approveSigned tx _ | cancelSigned tx _ => some tx.snapshot.txId
  | _ => none

/-- The statuses in which a command may leave the record that it closes. -/
def closes : Command → List Status
  | approve .. | approveSigned .. | requestSigned .. => [.completed, .failed]
  | cancel .. | cancelSigned .. => [.cancelled]
  | _ => []

/-- The request for which a command opens a record, if it opens one. -/
def asksFor? (engine : Identity) : Command → Option Request
  | request _ q => some q
  | requestPeriod caller u => some (Governance.updateRequest engine caller u)
  | requestSigned tx _ => some tx.snapshot.request
  | _ => none

end Command

/-- A reply shows a record that is closed; for one that is not, another reply is given. -/
def Reply.Shows (reply : Reply) (r : Record) (otherwise : Reply) : Prop :=
  r.status = .pending ∧ reply = otherwise ∨ r.status ≠ .pending ∧ reply = .closed r

/-! ## Changes of a record -/

namespace Record

variable {r r' r'' : Record} {c : Command}

/-- How a command changes the pending record that it names: it attaches a payment, or it closes the
record and appends to its history. -/
inductive ChangedBy (r : Record) : Command → Record → Prop where
  | attached (id : TxId) (caller : Identity) (payment : Payment) :
      ChangedBy r (.attachPayment id caller payment) { r with payment := some payment }
  | closed {c : Command} {status : Status} (closes : status ∈ c.closes) (result : Bytes)
      (message : Option Digest) (actions : List Action) :
      ChangedBy r c { r with status, result, message, history := r.history ++ actions }

/-- A record later on: what was asked for, through which function and when stays, the history only
grows, and once the record is closed nothing changes. -/
structure Later (r r' : Record) : Prop where
  id : r'.id = r.id
  request : r'.request = r.request
  handler : r'.handler = r.handler
  createdAt : r'.createdAt = r.createdAt
  releaseTime : r'.releaseTime = r.releaseTime
  history : r.history <+: r'.history
  closed : r.status ≠ .pending → r' = r

theorem Later.refl (r : Record) : r.Later r :=
  ⟨rfl, rfl, rfl, rfl, rfl, List.prefix_refl _, fun _ => rfl⟩

theorem Later.trans (h : r.Later r') (h' : r'.Later r'') : r.Later r'' where
  id := h'.id.trans h.id
  request := h'.request.trans h.request
  handler := h'.handler.trans h.handler
  createdAt := h'.createdAt.trans h.createdAt
  releaseTime := h'.releaseTime.trans h.releaseTime
  history := h.history.trans h'.history
  closed hs := by
    have same : r' = r := h.closed hs
    rw [h'.closed (by rw [same]; exact hs), same]

theorem ChangedBy.later (h : r.ChangedBy c r') (pending : r.status = .pending) : r.Later r' := by
  cases h with
  | attached =>
    exact ⟨rfl, rfl, rfl, rfl, rfl, List.prefix_refl _, fun hs => absurd pending hs⟩
  | closed =>
    exact ⟨rfl, rfl, rfl, rfl, rfl, List.prefix_append .., fun hs => absurd pending hs⟩

end Record

namespace Engine

variable {e e' : Engine} {c : Command} {cs : List Command} {reply : Reply} {id : TxId}
  {r r' : Record}

/-! ## The records -/

/-- A record as a command opens it: for its request, under a free number, now and for one period. -/
structure Fresh (e : Engine) (c : Command) (r : Record) : Prop where
  asked : c.asksFor? e.identity = some r.request
  free : e.ledger.records.get? r.id = none
  createdAt : r.createdAt = e.clock
  releaseTime : r.releaseTime.toNat =
    e.clock.toNat + (e.timelock.periodFor r.operation).toNat

/-- What an accepted command stores: no record, a fresh one, or the pending one that it names, with
changes. -/
inductive Stores (e : Engine) (c : Command) (e' : Engine) (reply : Reply) : Prop where
  | nothing (asked : c.asksFor? e.identity = none)
      (same : e'.ledger.records = e.ledger.records) (answers : ∀ r, reply ≠ .closed r)
  | opened (r : Record) (fresh : e.Fresh c r) (answers : reply.Shows r (.opened r.id))
      (stored : ∀ j, e'.ledger.records.get? j =
        if j = r.id then some r else e.ledger.records.get? j)
  | changed (id : TxId) (r r' : Record) (asked : c.asksFor? e.identity = none)
      (subject : c.subject? = some id) (pending : e.ledger.HasPending id r)
      (changed : r.ChangedBy c r') (answers : reply.Shows r' .done)
      (stored : ∀ j, e'.ledger.records.get? j =
        if j = id then some r' else e.ledger.records.get? j)

theorem changedBy_executed {actions : List Action} {message : Option Digest}
    (closes : c.closes = [.completed, .failed]) :
    r.ChangedBy c (e.executed (r.extended actions) message) := by
  refine .closed ?_ (e.carrying (r.extended actions)).2.2.result _ actions
  rw [closes]
  rcases executed_status e (r.extended actions) message with h | h
  · exact List.mem_cons.mpr (.inl h)
  · exact List.mem_cons.mpr (.inr (List.mem_singleton.mpr h))

theorem changedBy_calledOff {actions : List Action} {message : Option Digest}
    (closes : c.closes = [.cancelled]) : r.ChangedBy c (calledOff r actions message) :=
  .closed (closes ▸ List.mem_singleton_self _) [] _ actions

theorem executed_closed (e : Engine) (r : Record) (message : Option Digest) :
    (e.executed r message).status ≠ .pending :=
  execute_status_ne_pending _ _ _ _ _

theorem get?_approved {actor : Identity} {action : Action} {actions : List Action}
    {message : Option Digest} {j : TxId} :
    (e.approved id r actor action actions message).ledger.records.get? j =
      if j = id then some (e.executed (r.extended actions) message)
      else e.ledger.records.get? j := by
  rw [approved_ledger]
  exact Ledger.get?_close

theorem get?_requestedSigned {tx : MetaTx.Signed} {release : UInt64} {j : TxId} :
    (e.requestedSigned tx release).ledger.records.get? j =
      if j = e.ledger.nextId then some (e.executed (e.signedRecord tx release) (some tx.digest))
      else e.ledger.records.get? j := by
  rw [requestedSigned_ledger]
  exact Ledger.get?_close_opening

theorem Accepts.stores (h : e.Accepts c e' reply) : e.Stores c e' reply := by
  cases h with
  | @request handler q release may room =>
    exact .opened (e.newRecord handler q release) ⟨rfl, room.free, rfl, may.release⟩
      (.inl ⟨rfl, rfl⟩) fun _ => Ledger.get?_opening
  | @requestPeriod _ _ release may room =>
    exact .opened (e.newRecord _ _ release) ⟨rfl, room.free, rfl, may.release⟩
      (.inl ⟨rfl, rfl⟩) fun _ => Ledger.get?_opening
  | @requestSigned tx _ release may fits room =>
    exact .opened (e.executed (e.signedRecord tx release) (some tx.digest))
      ⟨rfl, room.free, rfl, may.release⟩ (.inr ⟨executed_closed _ _ _, rfl⟩)
      fun _ => get?_requestedSigned
  | attachPayment may =>
    exact .changed _ _ _ rfl rfl may.pending (.attached ..) (.inl ⟨may.pending.pending, rfl⟩)
      fun _ => Ledger.get?_put
  | approve may =>
    exact .changed _ _ _ rfl rfl may.pending (changedBy_executed rfl)
      (.inr ⟨executed_closed _ _ _, rfl⟩) fun _ => get?_approved
  | cancel may =>
    exact .changed _ _ _ rfl rfl may.pending (changedBy_calledOff rfl)
      (.inr ⟨Status.noConfusion, rfl⟩) fun _ => Ledger.get?_close
  | approveSigned may fits =>
    exact .changed _ _ _ rfl rfl may.pending (changedBy_executed rfl)
      (.inr ⟨executed_closed _ _ _, rfl⟩) fun _ => get?_approved
  | cancelSigned may fits =>
    exact .changed _ _ _ rfl rfl may.pending (changedBy_calledOff rfl)
      (.inr ⟨Status.noConfusion, rfl⟩) fun _ => Ledger.get?_close
  | _ => exact .nothing rfl rfl fun _ => Reply.noConfusion

/-- Every record is still there, and only the pending one that the command names may differ. -/
def KeepsRecords (e : Engine) (c : Command) (e' : Engine) : Prop :=
  ∀ id r, e.ledger.records.get? id = some r →
    ∃ r', e'.ledger.records.get? id = some r' ∧
      (r' = r ∨ c.subject? = some id ∧ r.status = .pending ∧ r.ChangedBy c r')

theorem keepsRecords_of_eq (h : e'.ledger.records = e.ledger.records) : e.KeepsRecords c e' :=
  fun _ r hr => ⟨r, by rw [h]; exact hr, .inl rfl⟩

theorem Accepts.keepsRecords (h : e.Accepts c e' reply) : e.KeepsRecords c e' := by
  cases h.stores with
  | nothing _ same => exact keepsRecords_of_eq same
  | opened r' fresh _ stored =>
    intro id r hr
    have hne : id ≠ r'.id := by
      rintro rfl
      rw [fresh.free] at hr
      cases hr
    exact ⟨r, by rw [stored, if_neg hne, hr], .inl rfl⟩
  | changed i q r' _ subject pending changed _ stored =>
    intro id r hr
    by_cases hid : id = i
    · subst hid
      have same : r = q := Option.some.inj (hr.symm.trans pending.stored)
      subst same
      exact ⟨r', by rw [stored, if_pos rfl], .inr ⟨subject, pending.pending, changed⟩⟩
    · exact ⟨r, by rw [stored, if_neg hid, hr], .inl rfl⟩

theorem keepsRecords_step (hn : e.ledger.Numbered) (c : Command) :
    e.KeepsRecords c (e.step c).1 := by
  rcases accepts_or_keeps hn c with ⟨e', reply, h⟩ | ⟨fault, verifier, h⟩
  · rw [h.step_eq]
    exact h.keepsRecords
  · rw [h]
    exact keepsRecords_of_eq rfl

theorem later_step (hn : e.ledger.Numbered) (c : Command)
    (stored : e.ledger.records.get? id = some r) :
    ∃ r', (e.step c).1.ledger.records.get? id = some r' ∧ r.Later r' := by
  obtain ⟨r', hr', rfl | ⟨-, pending, changed⟩⟩ := keepsRecords_step hn c id r stored
  · exact ⟨r', hr', .refl r'⟩
  · exact ⟨r', hr', changed.later pending⟩

theorem later_run (hn : e.ledger.Numbered) (cs : List Command)
    (stored : e.ledger.records.get? id = some r) :
    ∃ r', (e.run cs).ledger.records.get? id = some r' ∧ r.Later r' := by
  induction cs generalizing e r with
  | nil => exact ⟨r, stored, .refl r⟩
  | cons c cs ih =>
    obtain ⟨q, hq, later⟩ := later_step hn c stored
    obtain ⟨r', hr', later'⟩ := ih (numbered_step hn c) hq
    exact ⟨r', hr', later.trans later'⟩

/-! ## Closed records -/

theorem Accepts.mem_closes (h : e.Accepts c e' (.closed r)) : r.status ∈ c.closes := by
  have executed {q : Record} {message : Option Digest} :
      (e.executed q message).status ∈ [Status.completed, Status.failed] := by
    rcases executed_status e q message with h | h <;> rw [h] <;> decide
  cases h with
  | approve | approveSigned | requestSigned => exact executed
  | cancel | cancelSigned => exact List.mem_singleton_self _

/-- Nothing is closed that was not closed before. -/
def ClosesNothing (e e' : Engine) : Prop :=
  ∀ id r, e'.ledger.records.get? id = some r → r.status ≠ .pending →
    e.ledger.records.get? id = some r

/-- One record is stored, and it is closed; its number was free or its record pending. -/
structure Closes (e e' : Engine) (r : Record) : Prop where
  closed : r.status ≠ .pending
  before : ∀ q, e.ledger.records.get? r.id = some q → q.status = .pending
  stored : ∀ id, e'.ledger.records.get? id = if id = r.id then some r else e.ledger.records.get? id

theorem closesNothing_of_stored (pending : r.status = .pending)
    (stored : ∀ j, e'.ledger.records.get? j =
      if j = id then some r else e.ledger.records.get? j) : e.ClosesNothing e' := by
  intro j q hq closed
  rw [stored] at hq
  split at hq
  · cases hq
    exact absurd pending closed
  · exact hq

/-- An accepted command closes nothing, or it closes the record that it answers with. -/
theorem Accepts.closed_cases (h : e.Accepts c e' reply) (hn : e.ledger.Numbered) :
    (∀ r, reply ≠ .closed r) ∧ e.ClosesNothing e' ∨ ∃ r, reply = .closed r ∧ e.Closes e' r := by
  cases h.stores with
  | nothing _ same answers =>
    exact .inl ⟨answers, fun id r hr _ => by rw [← same]; exact hr⟩
  | opened r fresh answers stored =>
    rcases answers with ⟨pending, rfl⟩ | ⟨closed, rfl⟩
    · exact .inl ⟨fun _ => Reply.noConfusion, closesNothing_of_stored pending stored⟩
    · refine .inr ⟨r, rfl, closed, fun q hq => ?_, stored⟩
      exact absurd (fresh.free.symm.trans hq) (Option.some_ne_none q).symm
  | changed id q r' _ _ pending changed answers stored =>
    rcases answers with ⟨still, rfl⟩ | ⟨closed, rfl⟩
    · exact .inl ⟨fun _ => Reply.noConfusion, closesNothing_of_stored still stored⟩
    · have hid : r'.id = id :=
        (changed.later pending.pending).id.trans (hn _ _ pending.stored).1
      refine .inr ⟨r', rfl, closed, fun p hp => ?_, fun j => by rw [hid]; exact stored j⟩
      rw [hid, pending.stored] at hp
      cases hp
      exact pending.pending

/-! ## The rest -/

/-- What the registrations are about. -/
structure KeepsRegistrations (e e' : Engine) : Prop where
  roles : e'.access.roles = e.access.roles
  functions : e'.access.functions = e.access.functions
  grants : e'.access.grants = e.access.grants
  catalog : e'.catalog = e.catalog

/-- What the lifecycle of records is about, without the cancel windows. -/
structure KeepsLifecycle (e e' : Engine) : Prop where
  ledger : e'.ledger = e.ledger
  nonce : ∀ signer, e'.nonce signer = e.nonce signer
  period : ∀ operation, e'.timelock.periodFor operation = e.timelock.periodFor operation
  sink : e'.sink = e.sink
  dispatcher : e'.dispatcher = e.dispatcher

theorem KeepsLifecycle.refl (e : Engine) : e.KeepsLifecycle e :=
  ⟨rfl, fun _ => rfl, fun _ => rfl, rfl, rfl⟩

theorem Accepts.keepsRegistrations (h : e.Accepts c e' reply) (lifecycle : c.isLifecycle = true) :
    e.KeepsRegistrations e' := by
  cases h with
  | access | registerOperation => cases lifecycle
  | _ => exact ⟨rfl, rfl, rfl, rfl⟩

theorem Accepts.keepsLifecycle (h : e.Accepts c e' reply)
    (registration : c.isRegistration = true) : e.KeepsLifecycle e' := by
  cases h with
  | access | registerOperation | setCancelWindow =>
    exact ⟨rfl, fun _ => rfl, fun _ => rfl, rfl, rfl⟩
  | _ => cases registration

/-- What a command leaves as it was. -/
structure Frame (e : Engine) (c : Command) (e' : Engine) : Prop where
  /-- No record is lost, and a closed one is the same in all its fields. -/
  terminal : ∀ id r, e.ledger.records.get? id = some r → r.status ≠ .pending →
    e'.ledger.records.get? id = some r
  /-- A pending record that the command does not name is the same in all its fields. -/
  others : ∀ id r, e.ledger.records.get? id = some r → c.subject? ≠ some id →
    e'.ledger.records.get? id = some r
  /-- The pending one that it names changes at most as the command says. -/
  subject : ∀ id r, e.ledger.records.get? id = some r → c.subject? = some id →
    ∃ r', e'.ledger.records.get? id = some r' ∧ (r' = r ∨ r.status = .pending ∧ r.ChangedBy c r')
  registrations : c.isLifecycle = true → e.KeepsRegistrations e'
  lifecycle : c.isRegistration = true → e.KeepsLifecycle e'

theorem frame_of_numbered (hn : e.ledger.Numbered) (c : Command) : e.Frame c (e.step c).1 where
  terminal id r stored closed := by
    obtain ⟨r', hr', later⟩ := later_step hn c stored
    rw [hr', later.closed closed]
  others id r stored other := by
    obtain ⟨r', hr', rfl | ⟨subject, -⟩⟩ := keepsRecords_step hn c id r stored
    · exact hr'
    · exact absurd subject other
  subject id r stored _ := by
    obtain ⟨r', hr', same | ⟨-, pending, changed⟩⟩ := keepsRecords_step hn c id r stored
    · exact ⟨r', hr', .inl same⟩
    · exact ⟨r', hr', .inr ⟨pending, changed⟩⟩
  registrations lifecycle := by
    rcases accepts_or_keeps hn c with ⟨e', reply, h⟩ | ⟨fault, verifier, h⟩
    · rw [h.step_eq]
      exact h.keepsRegistrations lifecycle
    · rw [h]
      exact ⟨rfl, rfl, rfl, rfl⟩
  lifecycle registration := by
    rcases step_cases hn c with ⟨e', reply, h⟩ | ⟨fault, h | ⟨-, tx, relay, rfl, -, -⟩⟩
    · rw [h.step_eq]
      exact h.keepsLifecycle registration
    · rw [h]
      exact .refl e
    · cases registration

/-- In every reached engine a command, accepted or rejected, keeps its frame. -/
theorem frame_step {config : EngineConfig} {clock : UInt64} {sink : EventSink}
    {dispatcher : Dispatcher} {e₀ : Engine} (created : create config clock sink dispatcher = .ok e₀)
    (reached : Reaches e₀ e) (c : Command) : e.Frame c (e.step c).1 := by
  obtain ⟨cs, rfl⟩ := reaches_iff.mp reached
  exact frame_of_numbered ((isNew_of_create created).numbered cs) c

/-- A cancellation that comes too late leaves the completed record as it is. -/
theorem sample_framed : ∃ e₀ r, create Sample.config 100 (.memory []) .empty = .ok e₀ ∧
    let e := e₀.run Sample.commands
    e.ledger.records.get? Sample.txId = some r ∧ r.status = .completed ∧
      (e.step (.cancel Sample.txId Sample.owner)).1.ledger.records.get? Sample.txId = some r := by
  obtain ⟨e₀, _, created, -, completed, -, -⟩ := Sample.exists_completed
  obtain ⟨r, stored, status⟩ := Option.map_eq_some_iff.mp completed
  have frame := frame_step created (reaches_iff.mpr ⟨Sample.commands, rfl⟩)
    (.cancel Sample.txId Sample.owner)
  exact ⟨e₀, r, created, stored, status,
    frame.terminal Sample.txId r stored (by rw [status]; exact Status.noConfusion)⟩

end Engine

end Countersign
