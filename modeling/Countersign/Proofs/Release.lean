import Countersign.Proofs.Authorization
import Countersign.Proofs.Governance

/-!
# Release times

A record is opened at the time of the clock and released one period later, without overflow
(`Opens`). Both times stay, whatever becomes of the period and of the clock. So when a record is
approved on the delay track, the period that was in force when it was opened has passed
(`timeLocked_run`).
-/

namespace Countersign

namespace Engine

variable {e e' e₀ : Engine} {c : Command} {cs : List Command} {reply : Reply} {id i : TxId}
  {r : Record} {q : Request} {action : Action}

/-! ## Opening -/

/-- A command opens a record and stores it. -/
structure Opens (e : Engine) (c : Command) (r : Record) : Prop extends e.Fresh c r where
  stored : (e.step c).1.ledger.records.get? r.id = some r

theorem Opens.createdAt_lt (h : e.Opens c r) (positive : e.timelock.Positive) :
    r.createdAt < r.releaseTime := by
  have hne : (e.timelock.periodFor r.operation).toNat ≠ 0 := fun h0 =>
    positive r.operation (UInt64.toNat.inj h0)
  rw [UInt64.lt_iff_toNat_lt, h.createdAt, h.releaseTime]
  omega

/-- An accepted request opens its record and answers with it. -/
theorem opens_of_ok (asked : c.asksFor? e.identity = some q) (accepted : (e.step c).2 = .ok reply) :
    ∃ r, r.request = q ∧ e.Opens c r ∧ (reply = .opened r.id ∨ reply = .closed r) := by
  cases (step_eq_ok_iff.mp (step_eq_of_ok accepted)).stores with
  | opened r fresh answers stored =>
    have opens : e.Opens c r := ⟨fresh, by rw [stored, if_pos rfl]⟩
    exact ⟨r, Option.some.inj (fresh.asked.symm.trans asked), opens,
      answers.imp And.right And.right⟩
  | nothing unasked =>
    rw [unasked] at asked
    cases asked
  | changed _ _ _ unasked =>
    rw [unasked] at asked
    cases asked

/-- A record that is there after a step and was not before is opened in it. -/
theorem opens_of_new (hn : e.ledger.Numbered) (before : e.ledger.records.get? id = none)
    (after : (e.step c).1.ledger.records.get? id = some r) : e.Opens c r := by
  rcases accepts_or_keeps hn c with ⟨e', reply, h⟩ | ⟨fault, verifier, h⟩
  · have step := congrArg Prod.fst h.step_eq
    rw [step] at after
    cases h.stores with
    | nothing _ same =>
      rw [same, before] at after
      cases after
    | opened r' fresh _ stored =>
      rw [stored] at after
      split at after
      · cases after
        exact ⟨fresh, by rw [step, stored, if_pos rfl]⟩
      · cases before.symm.trans after
    | changed i q _ _ _ pending _ _ stored =>
      rw [stored] at after
      split at after
      · next hid =>
        rw [hid, pending.stored] at before
        cases before
      · cases before.symm.trans after
  · rw [h] at after
    cases before.symm.trans after

/-- Every record of a run was opened in some step of it. -/
theorem exists_opens (h : e₀.IsNew) (stored : (e₀.run cs).ledger.records.get? id = some r) :
    ∃ pre o post r₀, cs = pre ++ o :: post ∧ (e₀.run pre).Opens o r₀ ∧ r₀.Later r := by
  have after : (e₀.run cs).ledger.statusAt id ≠ none := by
    rw [Ledger.statusAt, stored]
    exact Option.some_ne_none _
  obtain ⟨pre, o, post, rfl, free, opened⟩ :=
    run_split (· ≠ none) (not_not_intro (h.statusAt id)) after
  have free : (e₀.run pre).ledger.records.get? id = none := by
    simpa [Ledger.statusAt] using free
  obtain ⟨r₀, hr₀⟩ : ∃ r₀, ((e₀.run pre).step o).1.ledger.records.get? id = some r₀ := by
    simpa [Ledger.statusAt, Option.ne_none_iff_exists'] using opened
  obtain ⟨r', hr', later⟩ := later_run (numbered_step (h.numbered pre) o) post hr₀
  rw [run_append, run_cons, hr'] at stored
  cases stored
  exact ⟨pre, o, post, r₀, rfl, opens_of_new (h.numbered pre) free hr₀, later⟩

/-- A request is refused, without any effect, if its release time is not a time of the clock. -/
theorem refused_of_overflow (asked : c.asksFor? e.identity = some q)
    (overflow : UInt64.size ≤ e.clock.toNat + (e.timelock.periodFor q.operation).toNat) :
    ∃ fault, e.step c = (e, .error fault) := by
  have never {release : UInt64}
      (h : release.toNat = e.clock.toNat + (e.timelock.periodFor q.operation).toNat) : False := by
    have := release.toNat_lt_size
    omega
  cases c with
  | request handler q' =>
    cases asked
    rcases hc : e.checkRequest handler q with fault | release
    · exact ⟨fault, by rw [step, Engine.request, hc, attempt_error]; rfl⟩
    · exact (never (checkRequest_eq_ok_iff.mp hc).release).elim
  | requestPeriod caller u =>
    cases asked
    rcases hc : e.checkRequest Governance.requestHandler
        (Governance.updateRequest e.identity caller u) with fault | release
    · exact ⟨fault, by rw [step, requestPeriod, Engine.request, hc, attempt_error]; rfl⟩
    · exact (never (checkRequest_eq_ok_iff.mp hc).release).elim
  | requestSigned tx relay =>
    cases asked
    -- The check comes before the nonce is used up.
    rcases hc : e.checkOpening tx relay with fault | release
    · exact ⟨fault, by rw [step, requestSigned, hc, attempt_error]; rfl⟩
    · exact (never (checkOpening_eq_ok_iff.mp hc).release).elim
  | _ => cases asked

/-! ## Waiting -/

/-- The last action in the history of a record. -/
def lastAction (e : Engine) (id : TxId) : Option Action :=
  (e.ledger.records.get? id).bind fun r => r.history.getLast?

theorem lastAction_of_stored (before : e.lastAction id ≠ some action)
    (after : e'.lastAction id = some action) (stored : ∀ j, e'.ledger.records.get? j =
      if j = i then some r else e.ledger.records.get? j) :
    id = i ∧ r.history.getLast? = some action := by
  unfold lastAction at before after
  rw [stored] at after
  split at after
  · next hid => exact ⟨hid, after⟩
  · exact absurd after before

/-- A record's history comes to end in an action of the delay track only if the conditions of that
action hold. -/
theorem Accepts.delayed (h : e.Accepts c e' reply) (before : e.lastAction id ≠ some action)
    (after : e'.lastAction id = some action) :
    (action = .timeDelayApprove → ∃ caller r, e.MayApprove id caller r) ∧
    (action = .timeDelayCancel → ∃ caller r, e.MayCancel id caller r) := by
  have other {a : Action} (last : some a = some action) (approve : a ≠ .timeDelayApprove)
      (cancel : a ≠ .timeDelayCancel) :
      (action = .timeDelayApprove → ∃ caller r, e.MayApprove id caller r) ∧
      (action = .timeDelayCancel → ∃ caller r, e.MayCancel id caller r) := by
    cases last
    exact ⟨fun h => absurd h approve, fun h => absurd h cancel⟩
  cases h with
  | request may room =>
    have last := (lastAction_of_stored before after fun _ => Ledger.get?_opening).2
    exact other last (by decide) (by decide)
  | requestPeriod may room =>
    have last := (lastAction_of_stored before after fun _ => Ledger.get?_opening).2
    exact other last (by decide) (by decide)
  | attachPayment may =>
    obtain ⟨rfl, last⟩ := lastAction_of_stored before after fun _ => Ledger.get?_put
    refine absurd ?_ before
    rw [lastAction, may.pending.stored]
    exact last
  | approve may =>
    obtain ⟨rfl, last⟩ := lastAction_of_stored before after fun _ => get?_approved
    obtain rfl : Action.timeDelayApprove = action :=
      Option.some.inj (List.getLast?_concat.symm.trans last)
    exact ⟨fun _ => ⟨_, _, may⟩, Action.noConfusion⟩
  | cancel may =>
    obtain ⟨rfl, last⟩ := lastAction_of_stored before after fun _ => Ledger.get?_close
    obtain rfl : Action.timeDelayCancel = action :=
      Option.some.inj (List.getLast?_concat.symm.trans last)
    exact ⟨Action.noConfusion, fun _ => ⟨_, _, may⟩⟩
  | approveSigned may fits =>
    have last := (lastAction_of_stored before after fun _ => get?_approved).2
    exact other (List.getLast?_append.symm.trans last) (by decide) (by decide)
  | cancelSigned may fits =>
    have last := (lastAction_of_stored before after fun _ => Ledger.get?_close).2
    exact other (List.getLast?_append.symm.trans last) (by decide) (by decide)
  | requestSigned may fits room =>
    have last := (lastAction_of_stored before after fun _ => get?_requestedSigned).2
    exact other last (by decide) (by decide)
  | _ => exact absurd after before

/-! ## Whole runs -/

/-- A record was opened in a run, and by now the period from then has passed. -/
def Waited (e₀ : Engine) (cs : List Command) (r : Record) (now : UInt64) : Prop :=
  ∃ pre o post r₀, cs = pre ++ o :: post ∧ (e₀.run pre).Opens o r₀ ∧ r₀.Later r ∧
    r.createdAt.toNat + ((e₀.run pre).timelock.periodFor r.operation).toNat ≤ now.toNat

theorem waited_of_released (h : e₀.IsNew) {now : UInt64}
    (stored : (e₀.run cs).ledger.records.get? id = some r) (released : r.releaseTime ≤ now) :
    e₀.Waited cs r now := by
  obtain ⟨pre, o, post, r₀, hcs, opens, later⟩ := exists_opens h stored
  refine ⟨pre, o, post, r₀, hcs, opens, later, ?_⟩
  calc r.createdAt.toNat + ((e₀.run pre).timelock.periodFor r.operation).toNat
      = (e₀.run pre).clock.toNat + ((e₀.run pre).timelock.periodFor r₀.operation).toNat := by
        rw [later.createdAt, opens.createdAt, Record.operation, later.request]
        rfl
    _ = r₀.releaseTime.toNat := opens.releaseTime.symm
    _ = r.releaseTime.toNat := by rw [later.releaseTime]
    _ ≤ now.toNat := UInt64.le_iff_toNat_le.mp released

/-- What the time-locks are good for, in the engine after a run. -/
structure TimeLocked (e₀ : Engine) (cs : List Command) : Prop where
  /-- An accepted request opens a record that is released later. -/
  opened : ∀ c q reply, c.asksFor? (e₀.run cs).identity = some q →
    ((e₀.run cs).step c).2 = .ok reply →
    ∃ r, r.request = q ∧ (e₀.run cs).Opens c r ∧ (reply = .opened r.id ∨ reply = .closed r) ∧
      r.createdAt < r.releaseTime
  /-- One whose release time does not fit is rejected and changes nothing. -/
  refused : ∀ c q, c.asksFor? (e₀.run cs).identity = some q →
    UInt64.size ≤ (e₀.run cs).clock.toNat +
      ((e₀.run cs).timelock.periodFor q.operation).toNat →
    ∃ fault, (e₀.run cs).step c = (e₀.run cs, .error fault)
  /-- Both times stay. -/
  kept : ∀ id r ds, (e₀.run cs).ledger.records.get? id = some r →
    ∃ r', (e₀.run (cs ++ ds)).ledger.records.get? id = some r' ∧
      r'.createdAt = r.createdAt ∧ r'.releaseTime = r.releaseTime
  /-- An approval on the delay track has waited for the record's period. -/
  approved : ∀ c id, (e₀.run cs).lastAction id ≠ some .timeDelayApprove →
    ((e₀.run cs).step c).1.lastAction id = some .timeDelayApprove →
    ∃ r, (e₀.run cs).ledger.records.get? id = some r ∧ e₀.Waited cs r (e₀.run cs).clock
  /-- So has a cancellation, if the cancel window opens with the release. -/
  cancelled : ∀ c id, (e₀.run cs).lastAction id ≠ some .timeDelayCancel →
    ((e₀.run cs).step c).1.lastAction id = some .timeDelayCancel →
    ∃ r, (e₀.run cs).ledger.records.get? id = some r ∧
      ((e₀.run cs).timelock.cancelWindow r.operation = .afterRelease →
        e₀.Waited cs r (e₀.run cs).clock)

theorem delayed_step (hn : e.ledger.Numbered) (before : e.lastAction id ≠ some action)
    (after : (e.step c).1.lastAction id = some action) :
    (action = .timeDelayApprove → ∃ caller r, e.MayApprove id caller r) ∧
    (action = .timeDelayCancel → ∃ caller r, e.MayCancel id caller r) := by
  rcases accepts_or_keeps hn c with ⟨e', reply, h⟩ | ⟨fault, verifier, h⟩
  · rw [h.step_eq] at after
    exact h.delayed before after
  · rw [h] at after
    exact absurd after before

/-- After every run of a new engine the time-locks hold, whatever has become of the clock, the periods
and the cancel windows. -/
theorem timeLocked_run {config : EngineConfig} {clock : UInt64} {sink : EventSink}
    {dispatcher : Dispatcher} (created : create config clock sink dispatcher = .ok e₀)
    (cs : List Command) : e₀.TimeLocked cs where
  opened c q reply asked accepted := by
    obtain ⟨r, hq, opens, answers⟩ := opens_of_ok asked accepted
    have positive := (governs_run (numbered_of_create created) (governs_of_create created).1 cs).positive
    exact ⟨r, hq, opens, answers, opens.createdAt_lt positive⟩
  refused _ _ asked overflow := refused_of_overflow asked overflow
  kept id r ds stored := by
    obtain ⟨r', hr', later⟩ := later_run ((isNew_of_create created).numbered cs) ds stored
    exact ⟨r', by rw [run_append, hr'], later.createdAt, later.releaseTime⟩
  approved c id before after := by
    obtain ⟨caller, r, may⟩ := (delayed_step ((isNew_of_create created).numbered cs) before after).1 rfl
    exact ⟨r, may.pending.stored,
      waited_of_released (isNew_of_create created) may.pending.stored may.released⟩
  cancelled c id before after := by
    obtain ⟨caller, r, may⟩ := (delayed_step ((isNew_of_create created).numbered cs) before after).2 rfl
    exact ⟨r, may.pending.stored, fun window =>
      waited_of_released (isNew_of_create created) may.pending.stored (may.window window)⟩

end Engine

/-!
## A cancellation

Once the owner has asked for a payment, the cancel window of payments is restricted, so only after a
minute it can be called off.
-/

namespace Sample

def restricted : List Command :=
  declarations ++
    [.request function.selector request, .setCancelWindow pay .afterRelease, .setClock 160]

theorem restricted_cancels : holds restricted (fun e =>
    decide (e.lastAction txId ≠ some .timeDelayCancel ∧
      (e.step (.cancel txId owner)).1.lastAction txId = some .timeDelayCancel ∧
      (e.ledger.records.get? txId).map (fun r => e.timelock.cancelWindow r.operation) =
        some .afterRelease ∧
      e.clock = 160)) = true := by
  decide +kernel

end Sample

theorem Engine.sample_waited : ∃ e₀ r, create Sample.config 100 (.memory []) .empty = .ok e₀ ∧
    let e := e₀.run Sample.restricted
    e.ledger.records.get? Sample.txId = some r ∧
    e.timelock.cancelWindow r.operation = .afterRelease ∧
    (e.step (.cancel Sample.txId Sample.owner)).1.lastAction Sample.txId =
      some .timeDelayCancel ∧
    e₀.Waited Sample.restricted r 160 := by
  obtain ⟨e₀, created, h⟩ := Sample.exists_of_holds Sample.restricted_cancels
  obtain ⟨before, after, window, clock⟩ := of_decide_eq_true h
  obtain ⟨r, stored, waited⟩ := (timeLocked_run created Sample.restricted).cancelled
    (.cancel Sample.txId Sample.owner) Sample.txId before after
  rw [stored] at window
  have window := Option.some.inj window
  rw [clock] at waited
  exact ⟨e₀, r, created, stored, window, after, waited window⟩

end Countersign
