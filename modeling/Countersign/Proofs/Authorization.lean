import Countersign.Proofs.Submission

/-!
# Who may change the status of a record

A record appears, or changes its status, only by an accepted lifecycle command whose caller, or
whose signer and relayer, hold the permission for it. `Authorized` lists these commands with what
each needs in the engine before the step.
-/

namespace Countersign

namespace Engine

open MetaTx (MetaStep)

variable {e e' : Engine} {c : Command} {cs : List Command} {id : TxId} {reply : Reply}

/-- A command that takes the record under a number from one status, or from none, to another, with
the permissions and the times it needs. -/
inductive Authorized (e : Engine) : Command → TxId → Option Status → Status → Prop where
  | request {handler : Selector} {q : Request}
      (granted : e.access.allows q.requester handler .timeDelayRequest = true) :
      Authorized e (.request handler q) e.ledger.nextId none .pending
  | requestPeriod {caller : Identity} {u : Governance.PeriodUpdate}
      (granted : e.access.allows caller Governance.requestHandler .timeDelayRequest = true) :
      Authorized e (.requestPeriod caller u) e.ledger.nextId none .pending
  | approve {id : TxId} {caller : Identity} {r : Record} {final : Status}
      (stored : e.ledger.HasPending id r)
      (granted : e.access.allows caller r.handler .timeDelayApprove = true)
      (released : r.releaseTime ≤ e.clock) (final_or : final = .completed ∨ final = .failed) :
      Authorized e (.approve id caller) id (some .pending) final
  | cancel {id : TxId} {caller : Identity} {r : Record} (stored : e.ledger.HasPending id r)
      (granted : e.access.allows caller r.handler .timeDelayCancel = true)
      (window : e.timelock.cancelWindow r.operation = .afterRelease → r.releaseTime ≤ e.clock) :
      Authorized e (.cancel id caller) id (some .pending) .cancelled
  | approveSigned {tx : MetaTx.Signed} {relay : MetaTx.Relay} {final : Status}
      (signed : e.SignedFor .approve tx relay) (final_or : final = .completed ∨ final = .failed) :
      Authorized e (.approveSigned tx relay) tx.snapshot.txId (some .pending) final
  | cancelSigned {tx : MetaTx.Signed} {relay : MetaTx.Relay}
      (signed : e.SignedFor .cancel tx relay) :
      Authorized e (.cancelSigned tx relay) tx.snapshot.txId (some .pending) .cancelled
  | requestSigned {tx : MetaTx.Signed} {relay : MetaTx.Relay} {final : Status}
      (signed : e.SignedFor .requestAndApprove tx relay)
      (final_or : final = .completed ∨ final = .failed) :
      Authorized e (.requestSigned tx relay) e.ledger.nextId none final

/-! ## One step -/

/-- When one record is stored, no other one changes its status. -/
theorem status_of_change {l l' : Ledger} {j : TxId} {r : Record}
    (h : l'.records.get? id = if id = j then some r else l.records.get? id)
    (changed : l'.statusAt id ≠ l.statusAt id) : id = j ∧ l'.statusAt id = some r.status := by
  have hs := Ledger.statusAt_of_get? h
  split at hs
  · next hid => exact ⟨hid, hs⟩
  · exact absurd hs changed

theorem Accepts.authorized (h : e.Accepts c e' reply)
    (changed : e'.ledger.statusAt id ≠ e.ledger.statusAt id) :
    ∃ status, e'.ledger.statusAt id = some status ∧
      e.Authorized c id (e.ledger.statusAt id) status := by
  cases h with
  | request may room =>
    obtain ⟨rfl, hs⟩ := status_of_change Ledger.get?_opening changed
    refine ⟨_, hs, ?_⟩
    rw [room.statusAt]
    exact .request may.granted
  | requestPeriod may room =>
    obtain ⟨rfl, hs⟩ := status_of_change Ledger.get?_opening changed
    refine ⟨_, hs, ?_⟩
    rw [room.statusAt]
    exact .requestPeriod may.granted
  | attachPayment may =>
    refine absurd ?_ changed
    exact may.pending.statusAt_put rfl
  | approve may =>
    rw [approved_ledger] at changed ⊢
    obtain ⟨rfl, hs⟩ := status_of_change Ledger.get?_close changed
    refine ⟨_, hs, ?_⟩
    rw [may.pending.statusAt]
    exact .approve may.pending may.granted may.released (executed_status ..)
  | cancel may =>
    obtain ⟨rfl, hs⟩ := status_of_change Ledger.get?_close changed
    refine ⟨_, hs, ?_⟩
    rw [may.pending.statusAt]
    exact .cancel may.pending may.granted may.window
  | approveSigned may fits =>
    rw [approved_ledger] at changed ⊢
    obtain ⟨rfl, hs⟩ := status_of_change Ledger.get?_close changed
    refine ⟨_, hs, ?_⟩
    rw [may.pending.statusAt]
    exact .approveSigned may.toSignedFor (executed_status ..)
  | cancelSigned may fits =>
    obtain ⟨rfl, hs⟩ := status_of_change Ledger.get?_close changed
    refine ⟨_, hs, ?_⟩
    rw [may.pending.statusAt]
    exact .cancelSigned may.toSignedFor
  | requestSigned may fits room =>
    rw [requestedSigned_ledger] at changed ⊢
    obtain ⟨rfl, hs⟩ := status_of_change Ledger.get?_close_opening changed
    refine ⟨_, hs, ?_⟩
    rw [room.statusAt]
    exact .requestSigned may.toSignedFor (executed_status ..)
  | _ => exact absurd rfl changed

theorem step_authorized (hn : e.ledger.Numbered) (c : Command) (id : TxId)
    (changed : (e.step c).1.ledger.statusAt id ≠ e.ledger.statusAt id) :
    ∃ reply status, (e.step c).2 = .ok reply ∧ (e.step c).1.ledger.statusAt id = some status ∧
      e.Authorized c id (e.ledger.statusAt id) status := by
  rcases accepts_or_keeps hn c with ⟨e', reply, h⟩ | ⟨fault, verifier, h⟩
  · rw [h.step_eq] at changed ⊢
    obtain ⟨status, hs, ha⟩ := h.authorized changed
    exact ⟨reply, status, rfl, hs, ha⟩
  · rw [h] at changed
    exact absurd rfl changed

/-! ## Whole runs -/

/-- What holds of a status after a run and not before came about in one of its steps. -/
theorem run_split (p : Option Status → Prop) (before : ¬ p (e.ledger.statusAt id))
    (after : p ((e.run cs).ledger.statusAt id)) :
    ∃ pre c post, cs = pre ++ c :: post ∧ ¬ p ((e.run pre).ledger.statusAt id) ∧
      p (((e.run pre).step c).1.ledger.statusAt id) := by
  induction cs generalizing e with
  | nil => exact absurd after before
  | cons c cs ih =>
    by_cases h : p ((e.step c).1.ledger.statusAt id)
    · exact ⟨[], c, cs, rfl, before, h⟩
    · obtain ⟨pre, c', post, rfl, hb, ha⟩ := ih h after
      exact ⟨c :: pre, c', post, rfl, hb, ha⟩

/-- Along every run of a new engine, the status of a record changes only in an accepted step that is
authorized in the engine before it. So each record was opened, and given the status it has, by
an authorized step. -/
theorem status_changes_authorized {config : EngineConfig} {clock : UInt64} {sink : EventSink}
    {dispatcher : Dispatcher} {e₀ : Engine} (created : create config clock sink dispatcher = .ok e₀)
    (cs : List Command) (id : TxId) :
    (∀ pre c post, cs = pre ++ c :: post →
      ((e₀.run pre).step c).1.ledger.statusAt id ≠ (e₀.run pre).ledger.statusAt id →
      ∃ reply status, ((e₀.run pre).step c).2 = .ok reply ∧
        ((e₀.run pre).step c).1.ledger.statusAt id = some status ∧
        (e₀.run pre).Authorized c id ((e₀.run pre).ledger.statusAt id) status) ∧
    ∀ status, (e₀.run cs).ledger.statusAt id = some status →
      (∃ pre c post first, cs = pre ++ c :: post ∧ (e₀.run pre).Authorized c id none first) ∧
      ∃ pre c post before, cs = pre ++ c :: post ∧ (e₀.run pre).Authorized c id before status := by
  have hnew := isNew_of_create created
  refine ⟨fun pre c post _ changed => step_authorized (hnew.numbered pre) c id changed, fun status hs => ⟨?_, ?_⟩⟩
  · -- A new engine has no record, so the status began to differ from `none` somewhere.
    obtain ⟨pre, c, post, rfl, hb, ha⟩ := run_split (· ≠ none) (not_not_intro (hnew.statusAt id))
      (show (e₀.run cs).ledger.statusAt id ≠ none by rw [hs]; simp)
    rw [Decidable.not_not] at hb
    obtain ⟨_, first, -, -, hau⟩ := step_authorized (hnew.numbered pre) c id (by rw [hb]; exact ha)
    rw [hb] at hau
    exact ⟨pre, c, post, first, rfl, hau⟩
  · have h₀ : ¬ e₀.ledger.statusAt id = some status := by rw [hnew.statusAt]; simp
    obtain ⟨pre, c, post, rfl, hb, ha⟩ := run_split (· = some status) h₀ hs
    obtain ⟨_, status', -, hs', hau⟩ :=
      step_authorized (hnew.numbered pre) c id (by rw [ha]; exact Ne.symm hb)
    rw [ha] at hs'
    cases hs'
    exact ⟨pre, c, post, _, rfl, hau⟩

theorem sample_completed_by_authorized_step :
    ∃ e₀, create Sample.config 100 (.memory []) .empty = .ok e₀ ∧
      (e₀.run Sample.commands).ledger.statusAt Sample.txId = some .completed ∧
      ∃ pre c post before, Sample.commands = pre ++ c :: post ∧
        (e₀.run pre).Authorized c Sample.txId before .completed := by
  obtain ⟨e₀, _, created, _, completed, -, -⟩ := Sample.exists_completed
  have h := status_changes_authorized created Sample.commands Sample.txId
  exact ⟨e₀, created, completed, (h.2 .completed completed).2⟩

end Engine

end Countersign
