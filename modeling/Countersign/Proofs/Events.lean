import Countersign.Proofs.Frame
import Countersign.Proofs.Submission

/-!
# What the sink is told

`Engine.events` lists what an engine tells its sink along a run: for every accepted lifecycle call
but an attached payment the kinds of `Command.kinds`, with the clock of the step. Every memory in the
sink appends this list (`sink_run`). Of each record the list tells as much as its status says that
has happened (`Record.Tells`), which each step carries on.
-/

namespace Countersign

/-! ## Sinks -/

namespace EventSink

mutual

/-- Every memory appends an event that the sink is told. -/
theorem memories_emit (ev : Event) :
    (s : EventSink) → (s.emit ev).memories = s.memories.map (· ++ [ev])
  | .memory _ => rfl
  | .fanOut sinks => memoriesAll_emitAll ev sinks
  | .silent => rfl

theorem memoriesAll_emitAll (ev : Event) : (sinks : List EventSink) →
    memoriesAll (emitAll ev sinks) = (memoriesAll sinks).map (· ++ [ev])
  | [] => rfl
  | s :: rest => by
    rw [emitAll, memoriesAll, memoriesAll, memories_emit ev s, memoriesAll_emitAll ev rest,
      List.map_append]

end

/-- The sink after it has been told some events, in order. -/
def tell (s : EventSink) (evs : List Event) : EventSink := evs.foldl (fun s ev => s.emit ev) s

theorem memories_tell (s : EventSink) (evs : List Event) :
    (s.tell evs).memories = s.memories.map (· ++ evs) := by
  induction evs generalizing s with
  | nil => simp [tell]
  | cons ev evs ih =>
    show ((s.emit ev).tell evs).memories = _
    rw [ih, memories_emit, List.map_map]
    refine List.map_congr_left fun held _ => ?_
    simp

end EventSink

/-! ## What a command tells -/

def Record.event (r : Record) (time : UInt64) (kind : EventKind) : Event :=
  ⟨r.id, r.operation, time, kind⟩

/-- The kinds of the events about a record that a command accepted on it gives rise to. -/
def Command.kinds (r : Record) : Command → List EventKind
  | request .. | requestPeriod .. => [.requested r.request.requester r.releaseTime]
  | approve _ caller => [.approved caller .timeDelayApprove, .executed r.status r.result]
  | cancel _ caller => [.cancelled caller .timeDelayCancel]
  | approveSigned tx _ =>
    [.approved tx.terms.signer .signMetaApprove, .executed r.status r.result]
  | cancelSigned tx _ => [.cancelled tx.terms.signer .signMetaCancel]
  | requestSigned tx _ =>
    [.requested r.request.requester r.releaseTime,
      .approved tx.terms.signer .signMetaRequestAndApprove, .executed r.status r.result]
  | _ => []

namespace Engine

variable {e e' e₀ : Engine} {c : Command} {cs : List Command} {reply : Reply} {id : TxId}
  {r : Record} {log : List Event}

/-- The record that a reply is about, as it is by then. -/
def shown? (e : Engine) : Reply → Option Record
  | .opened id => e.ledger.records.get? id
  | .closed r => some r
  | _ => none

/-- What is told in a step: nothing if the command is rejected. -/
def eventsAt (e : Engine) (c : Command) : List Event :=
  match e.step c with
  | (e', .ok reply) =>
    match e'.shown? reply with
    | some r => (c.kinds r).map (r.event e.clock)
    | none => []
  | (_, .error _) => []

/-- What is told along a run, in order. -/
def events : Engine → List Command → List Event
  | _, [] => []
  | e, c :: cs => e.eventsAt c ++ (e.step c).1.events cs

theorem eventsAt_of_error {fault : Fault} (h : (e.step c).2 = .error fault) :
    e.eventsAt c = [] := by
  rw [eventsAt]
  split
  · next h' => rw [h'] at h; cases h
  · rfl

theorem eventsAt_of_shown (h : e.Accepts c e' reply) (hr : e'.shown? reply = some r) :
    e.eventsAt c = (c.kinds r).map (r.event e.clock) := by
  simp only [eventsAt, h.step_eq, hr]

theorem eventsAt_of_none (h : e.Accepts c e' reply) (hr : e'.shown? reply = none) :
    e.eventsAt c = [] := by
  simp only [eventsAt, h.step_eq, hr]

end Engine

/-! ## The events of a record -/

/-- The names of a record's events by the time it has a status. -/
def Status.chapters : Status → List String
  | .pending => ["Requested"]
  | .cancelled => ["Requested", "Cancelled"]
  | .completed | .failed => ["Requested", "Approved", "Executed"]

namespace Record

/-- The event with which a record is opened. -/
def opening (r : Record) : Event :=
  r.event r.createdAt (.requested r.request.requester r.releaseTime)

/-- The events of a record, in order, as far as its status says. What closes it names an action of
its history, signed or not. -/
inductive Tells (r : Record) : List Event → Prop where
  | pending (status : r.status = .pending) : Tells r [r.opening]
  | cancelled (status : r.status = .cancelled) (time : UInt64) (actor : Identity) {action : Action}
      (cancels : action ∈ [Action.timeDelayCancel, .signMetaCancel])
      (recorded : action ∈ r.history) :
      Tells r [r.opening, r.event time (.cancelled actor action)]
  | executed (status : r.status = .completed ∨ r.status = .failed) (time : UInt64)
      (actor : Identity) {action : Action}
      (approves : action ∈ [Action.timeDelayApprove, .signMetaApprove, .signMetaRequestAndApprove])
      (recorded : action ∈ r.history) :
      Tells r [r.opening, r.event time (.approved actor action),
        r.event time (.executed r.status r.result)]

/-- The events of the record under a number, none if there is no record. -/
inductive Told : Option Record → List Event → Prop where
  | free : Told none []
  | stored {r : Record} {evs : List Event} (tells : r.Tells evs) : Told (some r) evs

variable {r : Record} {evs : List Event}

theorem Tells.eq_opening (h : r.Tells evs) (status : r.status = .pending) : evs = [r.opening] := by
  cases h with
  | pending => rfl
  | cancelled hs => rw [status] at hs; cases hs
  | executed hs => rw [status] at hs; rcases hs with hs | hs <;> cases hs

theorem Tells.names (h : r.Tells evs) :
    evs.map (fun ev => ev.kind.name) = r.status.chapters := by
  cases h with
  | pending status => rw [status]; rfl
  | cancelled status => rw [status]; rfl
  | executed status => rcases status with status | status <;> rw [status] <;> rfl

theorem Told.names {r? : Option Record} (h : Told r? evs) {status : Status}
    (hs : r?.map Record.status = some status) :
    evs.map (fun ev => ev.kind.name) = status.chapters := by
  cases h with
  | free => cases hs
  | stored tells => cases hs; exact tells.names

end Record

namespace Engine

open MetaTx (MetaStep)
open Record (Told)

variable {e e' e₀ : Engine} {c : Command} {cs : List Command} {reply : Reply} {id : TxId}
  {r : Record} {log : List Event}

/-! ## One step -/

theorem eq_nil_of_room (room : e.ledger.HasRoom)
    (told : Told (e.ledger.records.get? e.ledger.nextId) log) : log = [] := by
  rw [room.free] at told
  cases told
  rfl

theorem eq_opening_of_pending (hp : e.ledger.HasPending id r) (hid : r.id = id)
    (told : Told (e.ledger.records.get? r.id) log) : log = [r.opening] := by
  rw [hid, hp.stored] at told
  cases told with
  | stored tells => exact tells.eq_opening hp.pending

/-- What a command that stores a record has to do with it: it tells the sink about this record, and
carries on what has been told. -/
structure Narrates (e : Engine) (c : Command) (e' : Engine) (r : Record) : Prop where
  stored : ∀ j, e'.ledger.records.get? j = if j = r.id then some r else e.ledger.records.get? j
  listed : e.eventsAt c = (c.kinds r).map (r.event e.clock)
  sink : e'.sink = e.sink.tell ((c.kinds r).map (r.event e.clock))
  carriesOn : ∀ evs, Told (e.ledger.records.get? r.id) evs →
    r.Tells (evs ++ (c.kinds r).map (r.event e.clock))

section Rules

variable {e₁ : Engine} {actor : Identity} {action : Action} {actions : List Action}
  {message : Option Digest}

theorem narrates_requested {handler : Selector} {q : Request} {release : UInt64}
    (h : e.Accepts c (e.requested handler q release) (.opened e.ledger.nextId))
    (room : e.ledger.HasRoom)
    (kinds : ∀ r, c.kinds r = [.requested r.request.requester r.releaseTime]) :
    e.Narrates c (e.requested handler q release) (e.newRecord handler q release) where
  stored _ := Ledger.get?_opening
  listed := eventsAt_of_shown h SortedMap.get?_insert_self
  sink := by rw [kinds]; rfl
  carriesOn evs told := by
    rw [eq_nil_of_room room told, kinds]
    exact .pending rfl

theorem narrates_attached {payment : Payment}
    (h : e.Accepts c (e.recording id { r with payment := some payment }) .done)
    (hp : e.ledger.HasPending id r) (hid : r.id = id) (kinds : ∀ r, c.kinds r = []) :
    e.Narrates c (e.recording id { r with payment := some payment })
      { r with payment := some payment } where
  stored j := by
    rw [← hid]
    exact Ledger.get?_put
  listed := by rw [kinds]; exact eventsAt_of_none h rfl
  sink := by rw [kinds]; rfl
  carriesOn evs told := by
    rw [eq_opening_of_pending hp hid told, kinds]
    exact .pending hp.pending

theorem narrates_approved
    (h : e.Accepts c (e₁.approved id r actor action actions message)
      (.closed (e₁.executed (r.extended actions) message)))
    (hl : e₁.ledger = e.ledger) (hs : e₁.sink = e.sink) (hc : e₁.clock = e.clock)
    (hp : e.ledger.HasPending id r) (hid : r.id = id)
    (kinds : ∀ q, c.kinds q = [.approved actor action, .executed q.status q.result])
    (approves : action ∈ [Action.timeDelayApprove, .signMetaApprove, .signMetaRequestAndApprove])
    (recorded : action ∈ actions) :
    e.Narrates c (e₁.approved id r actor action actions message)
      (e₁.executed (r.extended actions) message) where
  stored j := by
    rw [get?_approved, hl, ← hid]
    rfl
  listed := eventsAt_of_shown h rfl
  sink := by
    rw [kinds, ← hs, ← hc, ← hid]
    rfl
  carriesOn evs told := by
    rw [eq_opening_of_pending hp hid told, kinds]
    exact .executed (executed_status ..) e.clock actor approves (List.mem_append_right _ recorded)

theorem narrates_cancelled
    (h : e.Accepts c (e₁.cancelled id r actor action actions message)
      (.closed (calledOff r actions message)))
    (hl : e₁.ledger = e.ledger) (hs : e₁.sink = e.sink) (hc : e₁.clock = e.clock)
    (hp : e.ledger.HasPending id r) (hid : r.id = id)
    (kinds : ∀ q, c.kinds q = [.cancelled actor action])
    (cancels : action ∈ [Action.timeDelayCancel, .signMetaCancel])
    (recorded : action ∈ actions) :
    e.Narrates c (e₁.cancelled id r actor action actions message)
      (calledOff r actions message) where
  stored j := by
    rw [cancelled_ledger, Ledger.get?_close, hl, ← hid]
    rfl
  listed := eventsAt_of_shown h rfl
  sink := by
    rw [kinds, ← hs, ← hc, ← hid]
    rfl
  carriesOn evs told := by
    rw [eq_opening_of_pending hp hid told, kinds]
    exact .cancelled rfl e.clock actor cancels (List.mem_append_right _ recorded)

theorem narrates_requestedSigned {tx : MetaTx.Signed} {relay : MetaTx.Relay} {release : UInt64}
    (h : e.Accepts (.requestSigned tx relay) (e.requestedSigned tx release)
      (.closed (e.executed (e.signedRecord tx release) (some tx.digest))))
    (room : e.ledger.HasRoom) :
    e.Narrates (.requestSigned tx relay) (e.requestedSigned tx release)
      (e.executed (e.signedRecord tx release) (some tx.digest)) where
  stored _ := get?_requestedSigned
  listed := eventsAt_of_shown h rfl
  sink := rfl
  carriesOn evs told := by
    have recorded : Action.signMetaRequestAndApprove ∈ MetaStep.requestAndApprove.pair := by decide
    rw [eq_nil_of_room room told]
    exact .executed (executed_status ..) e.clock tx.terms.signer (by decide) recorded

end Rules

/-- An accepted command leaves the records alone and tells nothing, or it stores one and tells about
it. -/
theorem Accepts.narrates (h : e.Accepts c e' reply) (hn : e.ledger.Numbered) :
    (e'.ledger.records = e.ledger.records ∧ e.eventsAt c = [] ∧
      (c ≠ .clearEvents → e'.sink = e.sink)) ∨ ∃ r, e.Narrates c e' r := by
  have accepted := h
  cases h with
  | request may room => exact .inr ⟨_, narrates_requested accepted room fun _ => rfl⟩
  | requestPeriod may room => exact .inr ⟨_, narrates_requested accepted room fun _ => rfl⟩
  | attachPayment may =>
    exact .inr ⟨_, narrates_attached accepted may.pending (hn _ _ may.pending.stored).1
      fun _ => rfl⟩
  | approve may =>
    exact .inr ⟨_, narrates_approved accepted rfl rfl rfl may.pending
      (hn _ _ may.pending.stored).1 (fun _ => rfl) (by decide) (by decide)⟩
  | cancel may =>
    exact .inr ⟨_, narrates_cancelled accepted rfl rfl rfl may.pending
      (hn _ _ may.pending.stored).1 (fun _ => rfl) (by decide) (by decide)⟩
  | approveSigned may fits =>
    exact .inr ⟨_, narrates_approved accepted rfl rfl rfl may.pending
      (hn _ _ may.pending.stored).1 (fun _ => rfl) (by decide) (by decide)⟩
  | cancelSigned may fits =>
    exact .inr ⟨_, narrates_cancelled accepted rfl rfl rfl may.pending
      (hn _ _ may.pending.stored).1 (fun _ => rfl) (by decide) (by decide)⟩
  | requestSigned may fits room => exact .inr ⟨_, narrates_requestedSigned accepted room⟩
  | clearEvents => exact .inl ⟨rfl, eventsAt_of_none accepted rfl, fun hc => absurd rfl hc⟩
  | _ => exact .inl ⟨rfl, eventsAt_of_none accepted rfl, fun _ => rfl⟩

/-- The sink is told the events of the step, in order, and nothing else. -/
theorem sink_step (hn : e.ledger.Numbered) (hc : c ≠ .clearEvents) :
    (e.step c).1.sink = e.sink.tell (e.eventsAt c) := by
  rcases accepts_or_keeps hn c with ⟨e', reply, h⟩ | ⟨fault, verifier, h⟩
  · rw [h.step_eq]
    rcases h.narrates hn with ⟨-, nothing, same⟩ | ⟨r, narrates⟩
    · rw [nothing]
      exact same hc
    · rw [narrates.listed]
      exact narrates.sink
  · rw [eventsAt_of_error (by rw [h]), h]
    rfl

/-- Only the entry points that open or close a record tell anything, and only when they accept. -/
theorem eventsAt_eq_nil (h : (∀ r, c.kinds r = []) ∨ ∃ fault, (e.step c).2 = .error fault) :
    e.eventsAt c = [] := by
  rcases h with h | ⟨fault, h⟩
  · rw [eventsAt]
    split
    · split
      · rw [h]; rfl
      · rfl
    · rfl
  · exact eventsAt_of_error h

/-- Where an event comes from: a command that is accepted on its record and is of a kind with it,
with the clock of that step. -/
structure TellsOf (e : Engine) (c : Command) (ev : Event) (r : Record) : Prop where
  accepted : ∃ reply, (e.step c).2 = .ok reply
  stored : (e.step c).1.ledger.records.get? ev.txId = some r
  operation : ev.operation = r.operation
  time : ev.time = e.clock
  kind : ev.kind ∈ c.kinds r

theorem exists_tellsOf (hn : e.ledger.Numbered) {ev : Event} (hev : ev ∈ e.eventsAt c) :
    ∃ r, e.TellsOf c ev r := by
  rcases accepts_or_keeps hn c with ⟨e', reply, h⟩ | ⟨fault, verifier, h⟩
  · rcases h.narrates hn with ⟨-, nothing, -⟩ | ⟨r, narrates⟩
    · rw [nothing] at hev
      cases hev
    · rw [narrates.listed] at hev
      obtain ⟨kind, hkind, rfl⟩ := List.mem_map.mp hev
      have stored : (e.step c).1.ledger.records.get? r.id = some r := by
        rw [h.step_eq]
        exact (narrates.stored r.id).trans (if_pos rfl)
      exact ⟨r, ⟨reply, by rw [h.step_eq]⟩, stored, rfl, rfl, hkind⟩
  · rw [eventsAt_of_error (by rw [h])] at hev
    cases hev

/-! ## Whole runs -/

theorem mem_events {ev : Event} : ev ∈ e.events cs ↔
    ∃ pre c post, cs = pre ++ c :: post ∧ ev ∈ (e.run pre).eventsAt c := by
  induction cs generalizing e with
  | nil => simp [events]
  | cons c cs ih =>
    rw [events, List.mem_append, ih]
    constructor
    · rintro (hev | ⟨pre, d, post, rfl, hev⟩)
      · exact ⟨[], c, cs, rfl, hev⟩
      · exact ⟨c :: pre, d, post, rfl, hev⟩
    · rintro ⟨_ | ⟨c', pre⟩, d, post, hc, hev⟩
      · cases hc
        exact .inl hev
      · cases hc
        exact .inr ⟨pre, d, post, rfl, hev⟩

/-- The sink of an engine along a run in which it is not cleared. -/
theorem sink_run (hn : e.ledger.Numbered) (uncleared : Command.clearEvents ∉ cs) :
    (e.run cs).sink = e.sink.tell (e.events cs) := by
  induction cs generalizing e with
  | nil => rfl
  | cons c cs ih =>
    obtain ⟨hc, hcs⟩ := List.ne_and_not_mem_of_not_mem_cons uncleared
    rw [run_cons, ih (numbered_step hn c) hcs, sink_step hn hc.symm, events, EventSink.tell,
      EventSink.tell, EventSink.tell, List.foldl_append]

/-- The events for one record among those of a list. -/
def eventsOn (id : TxId) (log : List Event) : List Event := log.filter fun ev => ev.txId = id

/-- A list has for every record of an engine the events that it has to have. -/
def Recounted (e : Engine) (log : List Event) : Prop :=
  ∀ id, Told (e.ledger.records.get? id) (eventsOn id log)

theorem recounted_step (hn : e.ledger.Numbered) (recounted : e.Recounted log) (c : Command) :
    (e.step c).1.Recounted (log ++ e.eventsAt c) := by
  rcases accepts_or_keeps hn c with ⟨e', reply, h⟩ | ⟨fault, verifier, h⟩
  · rw [h.step_eq]
    rcases h.narrates hn with ⟨hr, nothing, -⟩ | ⟨r, narrates⟩
    · intro id
      rw [nothing, List.append_nil]
      show Told (e'.ledger.records.get? id) _
      rw [hr]
      exact recounted id
    · rw [narrates.listed]
      have about : ∀ ev ∈ (c.kinds r).map (r.event e.clock), ev.txId = r.id := by
        intro ev hev
        obtain ⟨kind, -, rfl⟩ := List.mem_map.mp hev
        rfl
      exact forall_filter_append narrates.stored about
        (fun before => .stored (narrates.carriesOn _ before)) recounted
  · rw [eventsAt_of_error (by rw [h]), h, List.append_nil]
    exact recounted

theorem recounted_run (hn : e.ledger.Numbered) (recounted : e.Recounted log) (cs : List Command) :
    (e.run cs).Recounted (log ++ e.events cs) := by
  induction cs generalizing e log with
  | nil =>
    rw [events, List.append_nil]
    exact recounted
  | cons c cs ih =>
    rw [events, ← List.append_assoc]
    exact ih (numbered_step hn c) (recounted_step hn recounted c)

theorem IsNew.recounted (h : e.IsNew) (cs : List Command) :
    (e.run cs).Recounted (e.events cs) := by
  have nothing : e.Recounted [] := by
    intro id
    rw [h.ledger]
    exact .free
  exact recounted_run (h.numbered []) nothing cs

/-- Along every run of a new engine there is one list of events, of which each record has as many as
its status says, in order, and a number that is not in use has none. Each comes from a command that
was accepted on its record; a rejected command, an attached payment and a registration tell the sink
nothing. As long as the sink is not cleared, every memory in it holds this list after what it held
before. -/
theorem events_run {config : EngineConfig} {clock : UInt64} {sink : EventSink}
    {dispatcher : Dispatcher} (created : create config clock sink dispatcher = .ok e₀)
    (cs : List Command) :
    (.clearEvents ∉ cs →
      (e₀.run cs).sink.memories = sink.memories.map (· ++ e₀.events cs)) ∧
    (∀ id, Told ((e₀.run cs).ledger.records.get? id)
      ((e₀.events cs).filter fun ev => ev.txId = id)) ∧
    (∀ ev ∈ e₀.events cs, ∃ pre c post r, cs = pre ++ c :: post ∧ (e₀.run pre).TellsOf c ev r) ∧
    ∀ c, (c.isRegistration = true ∨ (∃ id caller p, c = .attachPayment id caller p) ∨
        ∃ fault, ((e₀.run cs).step c).2 = .error fault) →
      ((e₀.run cs).step c).1.sink = (e₀.run cs).sink := by
  have new := isNew_of_create created
  have numbered : e₀.ledger.Numbered := new.numbered []
  refine ⟨fun uncleared => ?_, new.recounted cs, fun ev hev => ?_, fun c hc => ?_⟩
  · rw [sink_run numbered uncleared, EventSink.memories_tell, (created_of_create created).sink]
  · obtain ⟨pre, c, post, hcs, hev⟩ := mem_events.mp hev
    obtain ⟨r, tells⟩ := exists_tellsOf (new.numbered pre) hev
    exact ⟨pre, c, post, r, hcs, tells⟩
  · have uncleared : c ≠ .clearEvents := by
      rintro rfl
      rcases hc with hc | ⟨_, _, _, hc⟩ | ⟨_, hc⟩ <;> cases hc
    have nothing : (e₀.run cs).eventsAt c = [] := by
      refine eventsAt_eq_nil ?_
      rcases hc with hc | ⟨_, _, _, rfl⟩ | hc
      · left
        intro r
        cases c <;> first | rfl | cases hc
      · exact .inl fun _ => rfl
      · exact .inr hc
    rw [sink_step (new.numbered cs) uncleared, nothing]
    rfl

end Engine

/-!
## Three records

Of three requests one is approved, one is cancelled and one left as it is. The sink passes what it
is told on to two memories.
-/

namespace Sample

def sinks : EventSink := .fanOut [.memory [], .silent, .fanOut [.memory []]]

def threeRecords : List Command :=
  declarations ++ List.replicate 3 (.request function.selector request) ++
    [.setClock 160, .approve ⟨1⟩ owner, .cancel ⟨2⟩ owner]

theorem exists_three : ∃ e, Engine.create config 100 sinks .empty = .ok e ∧
    (e.run threeRecords).ledger.statusAt ⟨1⟩ = some .completed ∧
    (e.run threeRecords).ledger.statusAt ⟨2⟩ = some .cancelled ∧
    (e.run threeRecords).ledger.statusAt ⟨3⟩ = some .pending := by
  have h : ((Engine.create config 100 sinks .empty).map fun e =>
      decide ((e.run threeRecords).ledger.statusAt ⟨1⟩ = some .completed ∧
        (e.run threeRecords).ledger.statusAt ⟨2⟩ = some .cancelled ∧
        (e.run threeRecords).ledger.statusAt ⟨3⟩ = some .pending)).toOption = some true := by
    decide +kernel
  cases created : Engine.create config 100 sinks .empty with
  | error fault =>
    rw [created] at h
    cases h
  | ok e =>
    rw [created] at h
    exact ⟨e, rfl, of_decide_eq_true (Option.some.inj h)⟩

end Sample

/-- Both memories hold the same events, of each record those that its status asks for. -/
theorem Engine.sample_events : ∃ e₀,
    create Sample.config 100 Sample.sinks .empty = .ok e₀ ∧
    let log := e₀.events Sample.threeRecords
    let names := fun id => (log.filter fun ev => ev.txId = id).map fun ev => ev.kind.name
    (e₀.run Sample.threeRecords).sink.memories = [log, log] ∧
    names ⟨1⟩ = ["Requested", "Approved", "Executed"] ∧ names ⟨2⟩ = ["Requested", "Cancelled"] ∧
    names ⟨3⟩ = ["Requested"] := by
  obtain ⟨e₀, created, completed, cancelled, pending⟩ := Sample.exists_three
  obtain ⟨memories, told, -, -⟩ := events_run created Sample.threeRecords
  exact ⟨e₀, created, memories (by decide), (told ⟨1⟩).names completed, (told ⟨2⟩).names cancelled,
    (told ⟨3⟩).names pending⟩

end Countersign
