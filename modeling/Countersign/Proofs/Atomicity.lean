import Countersign.Proofs.Submission

/-!
# Rejected commands

A command that is rejected changes nothing, and an approval is not rejected because its call or its
payment fails (`rejected_unchanged`). The exception is a request and approval in one: it uses up the
signer's nonce before it asks for a number, so that is gone when there is no number left
(`rejected_request`, `exhausted_request`).
-/

namespace Countersign

open MetaTx (MetaStep)

namespace Engine

variable {e e₀ : Engine} {c : Command} {r : Record} {fault : Fault} {id : TxId} {caller : Identity}
  {tx : MetaTx.Signed} {relay : MetaTx.Relay} {release : UInt64}

/-! ## One record at a time -/

/-- A command carries out a record and answers with it; the record has failed exactly if its call or
its payment has. -/
def Settles (e : Engine) (c : Command) (r : Record) : Prop :=
  ∃ final, (e.step c).2 = .ok (.closed final) ∧ final.id = r.id ∧
    (final.status = .completed ∨ final.status = .failed) ∧
    (final.status = .failed ↔ ∃ err, (e.carrying r).2.2.error = some err)

theorem approve_settles (may : e.MayApprove id caller r) :
    e.Settles (.approve id caller) (r.extended [.timeDelayApprove]) :=
  ⟨e.executed (r.extended [.timeDelayApprove]) none, congrArg Prod.snd (Accepts.approve may).step_eq,
    rfl, executed_status .., execute_failed_iff ..⟩

theorem approveSigned_settles (may : e.MayClose .approve tx relay r)
    (fits : e.HasNonce tx.terms.signer) :
    e.Settles (.approveSigned tx relay) (r.extended MetaStep.approve.pair) :=
  ⟨e.executed (r.extended MetaStep.approve.pair) (some tx.digest),
    congrArg Prod.snd (Accepts.approveSigned may fits).step_eq, rfl, executed_status ..,
    execute_failed_iff ..⟩

/-- In every reached engine a rejected command, unless it requests and approves in one, changes
nothing at all; the ledger refuses a new record only for want of a number, and before it is stored; and
an approval whose conditions hold is answered, whatever its call and its payment do. -/
theorem rejected_unchanged {config : EngineConfig} {clock : UInt64} {sink : EventSink}
    {dispatcher : Dispatcher} (created : create config clock sink dispatcher = .ok e₀)
    (reached : Reaches e₀ e) :
    (∀ c fault, (∀ tx relay, c ≠ .requestSigned tx relay) → (e.step c).2 = .error fault →
      (e.step c).1 = e) ∧
    (∀ q handler created release action fault,
      (e.ledger.insert q handler created release action).2 = .error fault →
        fault = .internal .idsExhausted ∧
          (e.ledger.insert q handler created release action).1 = e.ledger) ∧
    (∀ id caller r, e.MayApprove id caller r →
      e.Settles (.approve id caller) (r.extended [.timeDelayApprove])) ∧
    (∀ tx relay r, e.MayClose .approve tx relay r → e.HasNonce tx.terms.signer →
      e.Settles (.approveSigned tx relay) (r.extended MetaStep.approve.pair)) := by
  obtain ⟨cs, rfl⟩ := reaches_iff.mp reached
  have hn := (isNew_of_create created).numbered cs
  refine ⟨?_, fun _ _ _ _ _ _ refused => (hn.insert_of_error refused).2,
    fun _ _ _ => approve_settles, fun _ _ _ => approveSigned_settles⟩
  intro c fault single rejected
  rcases step_cases hn c with ⟨e', reply, h⟩ | ⟨_, h | ⟨-, tx, relay, hc, -, -⟩⟩
  · rw [h.step_eq] at rejected
    cases rejected
  · rw [h]
  · exact absurd hc (single tx relay)

/-- Approving the record again changes nothing. -/
theorem sample_rejected : ∃ e₀ fault, create Sample.config 100 (.memory []) .empty = .ok e₀ ∧
    let e := e₀.run Sample.commands
    (e.step (.approve Sample.txId Sample.owner)).2 = .error fault ∧
      (e.step (.approve Sample.txId Sample.owner)).1 = e := by
  obtain ⟨e₀, _, created, -, completed, -, -⟩ := Sample.exists_completed
  obtain ⟨unchanged, -⟩ := rejected_unchanged created (reaches_iff.mpr ⟨Sample.commands, rfl⟩)
  rcases approve_cases (e₀.run Sample.commands) Sample.txId Sample.owner with ⟨r, may⟩ | ⟨fault, h⟩
  · rw [may.pending.statusAt] at completed
    cases completed
  · have rejected : ((e₀.run Sample.commands).step (.approve Sample.txId Sample.owner)).2 =
        .error fault := by
      rw [step, h]
      rfl
    exact ⟨e₀, fault, created, rejected,
      unchanged (.approve Sample.txId Sample.owner) fault (fun _ _ => Command.noConfusion) rejected⟩

/-! ## A request and approval in one -/

theorem replying_eq_error_iff {α : Type} {reply : α → Reply} {r : Engine × Except Fault α} :
    (replying reply r).2 = .error fault ↔ r.2 = .error fault := by
  rcases r with ⟨e, fault' | a⟩
  · simp [replying, Except.map]
  · simp [replying, Except.map]

/-- The payload could be honoured, if only there were a number left for its record. -/
structure Unnumbered (e : Engine) (tx : MetaTx.Signed) (relay : MetaTx.Relay) : Prop where
  may : ∃ release, e.MayOpen tx relay release
  fits : e.HasNonce tx.terms.signer
  exhausted : e.ledger.next.toNat + 1 = UInt64.size

/-- The nonce is used up before the ledger is asked for a number. -/
theorem requestSigned_of_unnumbered (h : e.Unnumbered tx relay) :
    e.requestSigned tx relay =
      (e.spending tx.terms.signer, .error (.internal .idsExhausted)) := by
  obtain ⟨release, may⟩ := h.may
  exact requestSigned_of_exhausted may h.fits h.exhausted

/-- Once the checks and the nonce are passed, only a number can be missing. -/
theorem requestSigned_of_mayOpen (hn : e.ledger.Numbered) (may : e.MayOpen tx relay release)
    (fits : e.HasNonce tx.terms.signer) :
    (∃ e' final, e.requestSigned tx relay = (e', .ok final)) ∨ e.Unnumbered tx relay := by
  rcases hn.room_or_exhausted with room | exhausted
  · exact .inl ⟨_, _, requestSigned_ok may fits room⟩
  · exact .inr ⟨⟨release, may⟩, fits, exhausted⟩

theorem requestSigned_of_not_unnumbered (hn : e.ledger.Numbered)
    (numbered : ¬ e.Unnumbered tx relay)
    (rejected : (e.requestSigned tx relay).2 = .error fault) :
    (e.requestSigned tx relay).1 = e := by
  rcases hc : e.checkOpening tx relay with fault' | release
  · rw [requestSigned, hc, attempt_error]
  have may := checkOpening_eq_ok_iff.mp hc
  rcases consume_cases may.toSignedFor with ⟨fits, -⟩ | ⟨fault', hv⟩
  · rcases requestSigned_of_mayOpen hn may fits with ⟨e', final, h⟩ | unnumbered
    · rw [h] at rejected
      cases rejected
    · exact absurd unnumbered numbered
  · rw [requestSigned, hc, attempt_ok, hv, attempt_error]

/-- In every reached engine a request and approval in one that is rejected changes nothing, unless
its checks have passed and all numbers are used up. Then it has spent the signer's nonce, and nothing
else has changed. -/
theorem rejected_request {config : EngineConfig} {clock : UInt64} {sink : EventSink}
    {dispatcher : Dispatcher} (created : create config clock sink dispatcher = .ok e₀)
    (reached : Reaches e₀ e) (tx : MetaTx.Signed) (relay : MetaTx.Relay) (fault : Fault)
    (rejected : (e.step (.requestSigned tx relay)).2 = .error fault) :
    (¬ e.Unnumbered tx relay → (e.step (.requestSigned tx relay)).1 = e) ∧
    (e.Unnumbered tx relay → fault = .internal .idsExhausted ∧
      (e.step (.requestSigned tx relay)).1 = e.spending tx.terms.signer) := by
  obtain ⟨cs, rfl⟩ := reaches_iff.mp reached
  have hn := (isNew_of_create created).numbered cs
  have refused := replying_eq_error_iff.mp rejected
  refine ⟨fun numbered => requestSigned_of_not_unnumbered hn numbered refused, fun unnumbered => ?_⟩
  have h := requestSigned_of_unnumbered unnumbered
  rw [h] at refused
  cases refused
  exact ⟨rfl, congrArg Prod.fst h⟩

/-! ## Requesting over and over -/

/-- The engine with other records and another sink, which the checks of a request do not look at. -/
def storing (e : Engine) (l : Ledger) (s : EventSink) : Engine := { e with ledger := l, sink := s }

theorem checkOpening_storing {l : Ledger} {s : EventSink} :
    (e.storing l s).checkOpening tx relay = e.checkOpening tx relay := rfl

/-- A request that is accepted once is accepted until the numbers are used up. -/
theorem run_replicate_request {handler : Selector} {q : Request} {n : Nat}
    (passes : e.checkRequest handler q = .ok release) (hn : e.ledger.Numbered)
    (fits : e.ledger.next.toNat + n < UInt64.size) :
    ∃ l s, e.run (List.replicate n (.request handler q)) = e.storing l s ∧
      l.next.toNat = e.ledger.next.toNat + n := by
  induction n generalizing e with
  | zero => exact ⟨e.ledger, e.sink, rfl, rfl⟩
  | succ n ih =>
    have may := checkRequest_eq_ok_iff.mp passes
    have room := hn.hasRoom (show e.ledger.next.toNat + 1 < UInt64.size by omega)
    have hstep := (Accepts.request may room).step_eq
    have hnext : (e.requested handler q release).ledger.next.toNat = e.ledger.next.toNat + 1 :=
      toNat_add_one room.fits
    obtain ⟨l, s, hrun, hl⟩ := ih (e := e.requested handler q release) passes
      (hn.opening room rfl) (by rw [hnext]; omega)
    refine ⟨l, s, ?_, by rw [hl, hnext]; omega⟩
    rw [List.replicate_succ, run_cons, hstep, hrun]
    rfl

end Engine

namespace Sample

/-- A payload of the owner that requests and approves. -/
def requestPayload : MetaTx.Signed :=
  (MetaTx.Draft.of (.ofRequest request) ⟨config.chainId, EngineConfig.standardIdentity,
    function.selector, .signMetaRequestAndApprove, 1000, 0, owner, 0⟩).withSignature
    [127, 109, 233, 85, 28, 103, 191, 34, 66, 34, 26, 244, 159, 27, 100, 236, 58, 91, 124, 19, 33,
      216, 98, 230, 10, 244, 47, 89, 201, 144, 163, 124, 59, 22, 62, 251, 93, 89, 252, 131, 143, 98,
      89, 13, 169, 183, 204, 157, 80, 120, 101, 203, 243, 85, 82, 51, 95, 15, 164, 89, 67, 82, 78,
      10]

/-- As many requests as there are numbers. -/
def exhausting : List Command :=
  declarations ++ List.replicate (UInt64.size - 2) (.request function.selector request)

theorem declared_passes : holds (declarations) (fun e =>
    match e.checkRequest function.selector request, e.checkOpening requestPayload relay with
    | .ok _, .ok _ => decide (e.ledger.next = 1 ∧ e.nonce owner = 0)
    | _, _ => false) = true := by
  decide +kernel

theorem exists_exhausted : ∃ e, Engine.create config 100 (.memory []) .empty = .ok e ∧
    (e.run exhausting).Unnumbered requestPayload relay ∧ (e.run exhausting).nonce owner = 0 := by
  obtain ⟨e, created, h⟩ := exists_of_holds declared_passes
  split at h
  · next release release' passes opens =>
    obtain ⟨hnext, hnonce⟩ := of_decide_eq_true h
    have hn := (Engine.isNew_of_create created).numbered (declarations)
    have hone : (e.run (declarations)).ledger.next.toNat = 1 := by rw [hnext]; rfl
    have hsize : 2 < UInt64.size := by decide
    obtain ⟨l, s, hrun, hl⟩ := Engine.run_replicate_request (n := UInt64.size - 2) passes hn
      (by omega)
    rw [← Engine.run_append] at hrun
    have hnonce' : (e.run exhausting).nonce owner = 0 := by
      rw [exhausting, hrun]
      exact hnonce
    have opens' : (e.run exhausting).checkOpening requestPayload relay = .ok release' := by
      rw [exhausting, hrun, Engine.checkOpening_storing]
      exact opens
    refine ⟨e, created, ⟨⟨release', Engine.checkOpening_eq_ok_iff.mp opens'⟩, ?_, ?_⟩, hnonce'⟩
    · show ((e.run exhausting).nonce owner).toNat + 1 < UInt64.size
      rw [hnonce']
      decide
    · rw [exhausting, hrun]
      show l.next.toNat + 1 = UInt64.size
      omega
  · cases h

end Sample

namespace Engine

/-- With the numbers used up, the rejected payload has cost the owner a nonce, and nothing else has
changed. -/
theorem sample_spent : ∃ e₀, create Sample.config 100 (.memory []) .empty = .ok e₀ ∧
    let e := e₀.run Sample.exhausting
    (e.step (.requestSigned Sample.requestPayload Sample.relay)).2 =
        .error (.internal .idsExhausted) ∧
      (e.step (.requestSigned Sample.requestPayload Sample.relay)).1 = e.spending Sample.owner := by
  obtain ⟨e₀, created, unnumbered, -⟩ := Sample.exists_exhausted
  have rejected : ((e₀.run Sample.exhausting).step
      (.requestSigned Sample.requestPayload Sample.relay)).2 = .error (.internal .idsExhausted) := by
    rw [step, requestSigned_of_unnumbered unnumbered]
    rfl
  obtain ⟨-, spent⟩ := rejected_request created (reaches_iff.mpr ⟨Sample.exhausting, rfl⟩)
    Sample.requestPayload Sample.relay _ rejected
  exact ⟨e₀, created, rejected, (spent unnumbered).2⟩

/-- So a rejected request and approval in one can change the state of a reached engine. -/
theorem exhausted_request : ∃ e₀, create Sample.config 100 (.memory []) .empty = .ok e₀ ∧
    let e := e₀.run Sample.exhausting
    (e.step (.requestSigned Sample.requestPayload Sample.relay)).2 =
        .error (.internal .idsExhausted) ∧
      e.nonce Sample.owner = 0 ∧
      (e.step (.requestSigned Sample.requestPayload Sample.relay)).1.nonce Sample.owner = 1 := by
  obtain ⟨e₀, created, unnumbered, unspent⟩ := Sample.exists_exhausted
  refine ⟨e₀, created, ?_, unspent, ?_⟩
  · rw [step, requestSigned_of_unnumbered unnumbered]
    rfl
  · rw [step, requestSigned_of_unnumbered unnumbered]
    show ((e₀.run Sample.exhausting).verifier.spend Sample.owner).nonce Sample.owner = 1
    have hn : (e₀.run Sample.exhausting).verifier.nonce Sample.owner = 0 := unspent
    rw [MetaTx.Verifier.nonce_spend, if_pos rfl, hn]
    rfl

end Engine

end Countersign
