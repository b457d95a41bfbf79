import Countersign.Proofs.Atomicity
import Countersign.Proofs.Attempt
import Countersign.Proofs.Frame

/-!
# Internal faults

A fault of the kind `internal` reports a state that the engine itself must rule out, or a counter at
its end. No check faults like this (`Ordinary`), and what comes after the checks cannot fault at all,
except where a number or a nonce is used up (`WornOut`). So in a reached engine an internal fault means
that the numbers or a signer's nonces are exhausted, and nothing else
(`internal_faults_are_exhaustion`).
-/

namespace Countersign

open MetaTx (MetaStep)

/-! ## Ordinary results -/

/-- If it faults, then not internally. -/
def Ordinary {α : Type} (x : Except Fault α) : Prop :=
  ∀ fault, x = .error fault → fault.kind ≠ .internal

section Ordinary

variable {α β : Type} {x : Except Fault α} {fault : Fault}

theorem ordinary_ok {a : α} : Ordinary (.ok a : Except Fault α) := by
  intro fault h
  cases h

theorem ordinary_error (h : fault.kind ≠ .internal) : Ordinary (.error fault : Except Fault α) := by
  intro fault' h'
  cases h'
  exact h

theorem ordinary_ensure {c : Prop} [Decidable c] (h : fault.kind ≠ .internal) :
    Ordinary (ensure c fault) := by
  unfold ensure
  split
  · exact ordinary_ok
  · exact ordinary_error h

theorem Ordinary.bind {f : α → Except Fault β} (hx : Ordinary x) (hf : ∀ a, Ordinary (f a)) :
    Ordinary (x >>= f) := by
  intro fault h
  rcases bind_eq_error_iff.mp h with hfault | ⟨a, -, hfault⟩
  · exact hx fault hfault
  · exact hf a fault hfault

theorem Ordinary.map {f : α → β} (hx : Ordinary x) : Ordinary (x.map f) :=
  fun fault h => hx fault (map_eq_error_iff.mp h)

theorem ordinary_mapError {ε : Type} {x : Except ε α} {f : ε → Fault}
    (h : ∀ cause, (f cause).kind ≠ .internal) : Ordinary (x.mapError f) := by
  cases x with
  | ok a => exact ordinary_ok
  | error cause => exact ordinary_error (h cause)

theorem ordinary_foldlM {f : α → β → Except Fault α} (h : ∀ a b, Ordinary (f a b)) (bs : List β)
    (a : α) : Ordinary (bs.foldlM f a) := by
  induction bs generalizing a with
  | nil => exact ordinary_ok
  | cons b bs ih =>
    rw [List.foldlM_cons]
    exact .bind (h a b) fun a' => ih a'

end Ordinary

/-! ## Queries and checks -/

section Components

variable {id : OperationType} {s : Selector} {actions : List Action}

theorem AccessRegistry.ordinary_role {r : AccessRegistry} {id : RoleId} : Ordinary (r.role id) := by
  unfold role
  split
  · exact ordinary_ok
  · exact ordinary_error nofun

theorem AccessRegistry.ordinary_function {r : AccessRegistry} : Ordinary (r.function s) := by
  unfold function
  split
  · exact ordinary_ok
  · exact ordinary_error nofun

theorem AccessRegistry.ordinary_requireSupport {schema : FunctionSchema} :
    Ordinary (requireSupport schema s actions) := by
  unfold requireSupport
  split
  · exact ordinary_error nofun
  · exact ordinary_ok

theorem Catalog.ordinary_lookup {c : Catalog} : Ordinary (c.lookup id) := by
  unfold lookup
  split
  · exact ordinary_ok
  · exact ordinary_error nofun

theorem TimeLockPolicy.ordinary_releaseTime {p : TimeLockPolicy} {now : UInt64} :
    Ordinary (p.releaseTime id now) := by
  unfold releaseTime
  split
  · exact ordinary_ok
  · exact ordinary_error nofun

theorem Ledger.ordinary_get {l : Ledger} {id : TxId} : Ordinary (l.get id) := by
  unfold get
  split
  · exact ordinary_ok
  · exact ordinary_error nofun

theorem Ledger.ordinary_pendingRecord {l : Ledger} {id : TxId} : Ordinary (l.pendingRecord id) := by
  unfold pendingRecord
  exact .bind ordinary_get fun _ => .bind (ordinary_ensure nofun) fun _ => ordinary_ok

theorem MetaTx.Verifier.ordinary_requireSignature {signer : Identity} {g : Digest}
    {signature : Bytes} : Ordinary (requireSignature signer g signature) := by
  unfold requireSignature
  split
  · exact ordinary_ok
  · exact ordinary_error nofun

theorem MetaTx.Verifier.ordinary_check {v : Verifier} {tx : Signed} {now : UInt64}
    {gasPrice : Amount} : Ordinary (v.check tx now gasPrice) := by
  unfold check
  refine .bind (ordinary_ensure nofun) fun _ => .bind (ordinary_ensure nofun) fun _ => ?_
  refine .bind (ordinary_ensure nofun) fun _ => .bind (ordinary_ensure nofun) fun _ => ?_
  refine .bind ordinary_requireSignature fun _ => .bind (ordinary_ensure nofun) fun _ => ?_
  exact .bind (ordinary_ensure nofun) fun _ => ordinary_ensure nofun

theorem Catalog.ordinary_register {c : Catalog} {name : String} {paths : List WorkflowPath} :
    Ordinary (c.register id name paths) := by
  have sound : Ordinary (requirePaths paths) := by
    unfold requirePaths
    split
    · exact ordinary_error nofun
    · exact ordinary_ok
  unfold register
  refine .bind (ordinary_ensure nofun) fun _ => .bind (ordinary_ensure nofun) fun _ => ?_
  refine .bind sound fun _ => ?_
  split
  · exact .bind (ordinary_ensure nofun) fun _ => ordinary_ok
  · exact ordinary_ok

end Components

/-! ## Changes of the registry -/

namespace AccessRegistry

variable {r : AccessRegistry} {id : RoleId} {i j : Identity} {s : Selector} {actions : List Action}

theorem ordinary_defineRole {name : String} {maxMembers : UInt64} {isProtected : Bool} :
    Ordinary (r.defineRole name maxMembers isProtected) := by
  unfold defineRole
  split
  · exact ordinary_error nofun
  split
  · exact ordinary_error nofun
  dsimp only
  split
  · split
    · exact ordinary_error nofun
    split
    · exact ordinary_error nofun
    · exact ordinary_ok
  · exact ordinary_ok

theorem ordinary_addMember : Ordinary (r.addMember id i) := by
  unfold addMember
  refine .bind ordinary_role fun _ => .bind (ordinary_ensure nofun) fun _ => ?_
  exact .bind (ordinary_ensure nofun) fun _ => ordinary_ok

theorem ordinary_removeMember : Ordinary (r.removeMember id i) := by
  unfold removeMember
  refine .bind ordinary_role fun _ => .bind (ordinary_ensure nofun) fun _ => ?_
  exact .bind (ordinary_ensure nofun) fun _ => ordinary_ok

theorem ordinary_replaceMember : Ordinary (r.replaceMember id i j) := by
  unfold replaceMember
  refine .bind ordinary_role fun _ => .bind (ordinary_ensure nofun) fun _ => ?_
  exact .bind (ordinary_ensure nofun) fun _ => ordinary_ok

theorem ordinary_registerFunction {schema : FunctionSchema} :
    Ordinary (r.registerFunction schema) := by
  unfold registerFunction
  split
  · split
    · exact ordinary_ok
    · exact ordinary_error nofun
  · exact ordinary_ok

theorem ordinary_grant : Ordinary (r.grant id s actions) := by
  unfold grant
  refine .bind ordinary_role fun _ => .bind ordinary_function fun _ => ?_
  exact .bind ordinary_requireSupport fun _ => ordinary_ok

theorem ordinary_revoke : Ordinary (r.revoke id s actions) := by
  unfold revoke
  refine .bind ordinary_role fun _ => .bind ordinary_function fun _ => ?_
  split
  · exact ordinary_ok
  · exact ordinary_ok

theorem ordinary_step (change : AccessCommand) : Ordinary (r.step change) := by
  cases change with
  | defineRole => exact ordinary_defineRole.map
  | addMember => exact ordinary_addMember.map
  | removeMember => exact ordinary_removeMember.map
  | replaceMember => exact ordinary_replaceMember.map
  | registerFunction => exact ordinary_registerFunction.map
  | grant => exact ordinary_grant.map
  | revoke => exact ordinary_revoke.map

end AccessRegistry

namespace Engine

variable {e e₀ : Engine} {c : Command} {fault : Fault} {id : TxId} {caller : Identity} {r : Record}
  {q : Request} {p : Payment} {handler : Selector} {tx : MetaTx.Signed} {relay : MetaTx.Relay}
  {operation : OperationType} {actions rest : List Action} {action : Action} {step : MetaStep}

/-! ## The engine's checks -/

theorem ordinary_requireHandler : Ordinary (e.requireHandler handler operation actions) := by
  unfold requireHandler
  refine .bind AccessRegistry.ordinary_function fun _ => .bind (ordinary_ensure nofun) fun _ => ?_
  exact AccessRegistry.ordinary_requireSupport

theorem ordinary_requireExecution : Ordinary (e.requireExecution q) := by
  unfold requireExecution
  split
  · exact ordinary_error nofun
  · exact ordinary_ok

theorem ordinary_requirePayment : Ordinary (e.requirePayment q p) := by
  unfold requirePayment
  split
  · exact ordinary_error nofun
  · exact ordinary_ok

theorem ordinary_requireSnapshotPayment {s : MetaTx.Snapshot} :
    Ordinary (e.requireSnapshotPayment s) := by
  unfold requireSnapshotPayment
  split
  · exact ordinary_ok
  · exact ordinary_requirePayment

theorem ordinary_requirePair {signer relayer : Identity} :
    Ordinary (e.requirePair step handler signer relayer) := by
  unfold requirePair
  exact .bind (ordinary_ensure nofun) fun _ => ordinary_ensure nofun

theorem ordinary_checkRequest : Ordinary (e.checkRequest handler q) := by
  unfold checkRequest
  refine .bind (ordinary_ensure nofun) fun _ => .bind ordinary_requireHandler fun _ => ?_
  refine .bind (ordinary_ensure nofun) fun _ => .bind ordinary_requireExecution fun _ => ?_
  exact .bind (ordinary_ensure nofun) fun _ => TimeLockPolicy.ordinary_releaseTime

theorem ordinary_checkPayment : Ordinary (e.checkPayment id caller p) := by
  unfold checkPayment
  refine .bind Ledger.ordinary_pendingRecord fun _ => .bind (ordinary_ensure nofun) fun _ => ?_
  exact ordinary_requirePayment

theorem ordinary_checkApproval : Ordinary (e.checkApproval id caller) := by
  unfold checkApproval
  refine .bind Ledger.ordinary_pendingRecord fun _ => .bind (ordinary_ensure nofun) fun _ => ?_
  exact .bind (ordinary_ensure nofun) fun _ => .bind (ordinary_ensure nofun) fun _ => ordinary_ok

theorem ordinary_checkCancellation : Ordinary (e.checkCancellation id caller) := by
  have window {r : Record} :
      Ordinary (e.timelock.requireCancellable id r.operation r.releaseTime e.clock) := by
    unfold TimeLockPolicy.requireCancellable
    split
    · exact ordinary_ok
    · exact ordinary_ensure nofun
  unfold checkCancellation
  refine .bind Ledger.ordinary_pendingRecord fun _ => .bind (ordinary_ensure nofun) fun _ => ?_
  exact .bind (ordinary_ensure nofun) fun _ => .bind window fun _ => ordinary_ok

theorem ordinary_checkClosing : Ordinary (e.checkClosing step tx relay) := by
  unfold checkClosing
  refine .bind (ordinary_ensure nofun) fun _ => .bind MetaTx.Verifier.ordinary_check fun _ => ?_
  refine .bind Ledger.ordinary_pendingRecord fun _ => .bind (ordinary_ensure nofun) fun _ => ?_
  refine .bind ordinary_requireHandler fun _ => .bind (ordinary_ensure nofun) fun _ => ?_
  exact .bind ordinary_requirePair fun _ => ordinary_ok

theorem ordinary_checkOpening : Ordinary (e.checkOpening tx relay) := by
  unfold checkOpening
  refine .bind (ordinary_ensure nofun) fun _ => .bind (ordinary_ensure nofun) fun _ => ?_
  refine .bind (ordinary_ensure nofun) fun _ => .bind (ordinary_ensure nofun) fun _ => ?_
  refine .bind ordinary_requireHandler fun _ => .bind (ordinary_ensure nofun) fun _ => ?_
  refine .bind ordinary_requireExecution fun _ => .bind ordinary_requireSnapshotPayment fun _ => ?_
  refine .bind MetaTx.Verifier.ordinary_check fun _ => .bind ordinary_requirePair fun _ => ?_
  exact TimeLockPolicy.ordinary_releaseTime

theorem ordinary_requireDeclarable {change : AccessCommand} :
    Ordinary (e.requireDeclarable change) := by
  unfold requireDeclarable
  split
  · exact Catalog.ordinary_lookup.map
  · exact ordinary_ok

theorem ordinary_prepareClosing {t : MetaTx.Terms} : Ordinary (e.prepareClosing id t) := by
  unfold prepareClosing
  refine .bind Ledger.ordinary_pendingRecord fun _ => ?_
  split
  · exact ordinary_error nofun
  · exact .bind ordinary_requireHandler fun _ => ordinary_ok

theorem ordinary_prepareOpening {t : MetaTx.Terms} : Ordinary (e.prepareOpening q t) := by
  unfold prepareOpening
  refine .bind (ordinary_ensure nofun) fun _ => .bind (ordinary_ensure nofun) fun _ => ?_
  refine .bind ordinary_requireHandler fun _ => .bind ordinary_requireExecution fun _ => ?_
  exact ordinary_ok

/-! ## Past the checks -/

/-- An internal fault does not come from an ordinary check but from what follows it. -/
theorem past_check {α β : Type} {x : Except Fault α} {next : α → Engine × Except Fault β}
    (hx : Ordinary x) (internal : fault.kind = .internal)
    (h : (e.attempt x next).2 = .error fault) : ∃ a, x = .ok a ∧ (next a).2 = .error fault := by
  cases x with
  | ok a => exact ⟨a, rfl, h⟩
  | error fault' =>
    cases h
    exact absurd internal (hx _ rfl)

/-- A nonce at its end is not used up. -/
theorem consume_of_spent (h : e.SignedFor step tx relay) (spent : ¬ e.HasNonce tx.terms.signer) :
    e.verifier.consume tx = .error (.internal (.nonceOverflow tx.terms.signer)) := by
  have next : e.verifier.nonces.requireNext tx.terms.signer tx.terms.nonce = .ok () :=
    ensure_eq_ok_iff.mpr h.nonce
  have ended : add? tx.terms.nonce 1 = none := by
    rw [add?_eq_none_iff, h.nonce, UInt64.toNat_one]
    exact Nat.le_of_not_lt spent
  simp only [MetaTx.Verifier.consume, MetaTx.Nonces.consume, next, ended]
  rfl

/-- The signer of a checked payload has a nonce to spend, or that is the fault. -/
theorem hasNonce_or_spent {α : Type} {next : MetaTx.Verifier × UInt64 → Engine × Except Fault α}
    (signed : e.SignedFor step tx relay)
    (h : (e.attempt (e.verifier.consume tx) next).2 = .error fault) :
    e.HasNonce tx.terms.signer ∨
      ¬ e.HasNonce tx.terms.signer ∧ fault = .internal (.nonceOverflow tx.terms.signer) := by
  by_cases fits : e.HasNonce tx.terms.signer
  · exact .inl fits
  · rw [consume_of_spent signed fits] at h
    cases h
    exact .inr ⟨fits, rfl⟩

/-- A command for which all conditions hold, but for which there is no number left, or no nonce of the
signer. -/
inductive WornOut (e : Engine) : Command → Breach → Prop where
  | request {handler : Selector} {q : Request} {release : UInt64}
      (may : e.MayRequest handler q release)
      (exhausted : e.ledger.next.toNat + 1 = UInt64.size) :
      WornOut e (.request handler q) .idsExhausted
  | requestPeriod {caller : Identity} {u : Governance.PeriodUpdate} {release : UInt64}
      (may : e.MayRequest Governance.requestHandler
        (Governance.updateRequest e.identity caller u) release)
      (exhausted : e.ledger.next.toNat + 1 = UInt64.size) :
      WornOut e (.requestPeriod caller u) .idsExhausted
  | requestSigned {tx : MetaTx.Signed} {relay : MetaTx.Relay} (unnumbered : e.Unnumbered tx relay) :
      WornOut e (.requestSigned tx relay) .idsExhausted
  | opens {tx : MetaTx.Signed} {relay : MetaTx.Relay} {release : UInt64}
      (may : e.MayOpen tx relay release) (spent : ¬ e.HasNonce tx.terms.signer) :
      WornOut e (.requestSigned tx relay) (.nonceOverflow tx.terms.signer)
  | approves {tx : MetaTx.Signed} {relay : MetaTx.Relay} {r : Record}
      (may : e.MayClose .approve tx relay r) (spent : ¬ e.HasNonce tx.terms.signer) :
      WornOut e (.approveSigned tx relay) (.nonceOverflow tx.terms.signer)
  | cancels {tx : MetaTx.Signed} {relay : MetaTx.Relay} {r : Record}
      (may : e.MayClose .cancel tx relay r) (spent : ¬ e.HasNonce tx.terms.signer) :
      WornOut e (.cancelSigned tx relay) (.nonceOverflow tx.terms.signer)

theorem WornOut.step_eq {breach : Breach} (h : e.WornOut c breach) :
    (e.step c).2 = .error (.internal breach) := by
  cases h with
  | request may exhausted => rw [Engine.step, request_of_exhausted may exhausted]; rfl
  | requestPeriod may exhausted =>
    rw [Engine.step, Engine.requestPeriod, request_of_exhausted may exhausted]
    rfl
  | requestSigned unnumbered => rw [Engine.step, requestSigned_of_unnumbered unnumbered]; rfl
  | opens may spent =>
    rw [Engine.step, Engine.requestSigned, checkOpening_eq_ok_iff.mpr may, attempt_ok,
      consume_of_spent may.toSignedFor spent, attempt_error]
    rfl
  | approves may spent =>
    rw [Engine.step, approveSigned, checkClosing_eq_ok_iff.mpr may, attempt_ok,
      consume_of_spent may.toSignedFor spent, attempt_error]
    rfl
  | cancels may spent =>
    rw [Engine.step, cancelSigned, checkClosing_eq_ok_iff.mpr may, attempt_ok,
      consume_of_spent may.toSignedFor spent, attempt_error]
    rfl

/-- A request faults internally only without a number. -/
theorem request_breach (hn : e.ledger.Numbered) (internal : fault.kind = .internal)
    (h : (e.request handler q).2 = .error fault) : fault = .internal .idsExhausted ∧
      e.ledger.next.toNat + 1 = UInt64.size ∧ ∃ release, e.MayRequest handler q release := by
  obtain ⟨release, hc, -⟩ := past_check ordinary_checkRequest internal h
  have may := checkRequest_eq_ok_iff.mp hc
  rcases hn.room_or_exhausted with room | exhausted
  · rw [request_ok may room] at h
    cases h
  · rw [request_of_exhausted may exhausted] at h
    cases h
    exact ⟨rfl, exhausted, release, may⟩

/-- A rejected command has not faulted internally, or it is worn out. -/
theorem wornOut_of_step (hn : e.ledger.Numbered) (internal : fault.kind = .internal)
    (h : (e.step c).2 = .error fault) : ∃ breach, fault = .internal breach ∧ e.WornOut c breach := by
  cases c with
  | access change =>
    obtain ⟨u, hd, h⟩ := past_check ordinary_requireDeclarable internal
      (replying_eq_error_iff.mp h)
    obtain ⟨changed, ha, h⟩ := past_check (AccessRegistry.ordinary_step change) internal h
    cases h
  | registerOperation id name paths =>
    obtain ⟨registered, hr, h⟩ := past_check Catalog.ordinary_register internal
      (replying_eq_error_iff.mp h)
    cases h
  | request handler q =>
    obtain ⟨rfl, exhausted, release, may⟩ := request_breach hn internal (replying_eq_error_iff.mp h)
    exact ⟨_, rfl, .request may exhausted⟩
  | requestPeriod caller u =>
    obtain ⟨rfl, exhausted, release, may⟩ := request_breach hn internal (replying_eq_error_iff.mp h)
    exact ⟨_, rfl, .requestPeriod may exhausted⟩
  | attachPayment id caller p =>
    have h := replying_eq_error_iff.mp h
    obtain ⟨u, hc, -⟩ := past_check ordinary_checkPayment internal h
    obtain ⟨r, may⟩ := checkPayment_eq_ok_iff.mp hc
    rw [attachPayment_ok may] at h
    cases h
  | approve id caller =>
    have h := replying_eq_error_iff.mp h
    obtain ⟨r, hc, -⟩ := past_check ordinary_checkApproval internal h
    rw [approve_ok (checkApproval_eq_ok_iff.mp hc)] at h
    cases h
  | cancel id caller =>
    have h := replying_eq_error_iff.mp h
    obtain ⟨r, hc, -⟩ := past_check ordinary_checkCancellation internal h
    rw [cancel_ok (checkCancellation_eq_ok_iff.mp hc)] at h
    cases h
  | approveSigned tx relay =>
    have h := replying_eq_error_iff.mp h
    obtain ⟨r, hc, h'⟩ := past_check ordinary_checkClosing internal h
    have may := checkClosing_eq_ok_iff.mp hc
    rcases hasNonce_or_spent may.toSignedFor h' with fits | ⟨spent, rfl⟩
    · rw [approveSigned_ok may fits] at h
      cases h
    · exact ⟨_, rfl, .approves may spent⟩
  | cancelSigned tx relay =>
    have h := replying_eq_error_iff.mp h
    obtain ⟨r, hc, h'⟩ := past_check ordinary_checkClosing internal h
    have may := checkClosing_eq_ok_iff.mp hc
    rcases hasNonce_or_spent may.toSignedFor h' with fits | ⟨spent, rfl⟩
    · rw [cancelSigned_ok may fits] at h
      cases h
    · exact ⟨_, rfl, .cancels may spent⟩
  | requestSigned tx relay =>
    have h := replying_eq_error_iff.mp h
    obtain ⟨release, hc, h'⟩ := past_check ordinary_checkOpening internal h
    have may := checkOpening_eq_ok_iff.mp hc
    rcases hasNonce_or_spent may.toSignedFor h' with fits | ⟨spent, rfl⟩
    · rcases requestSigned_of_mayOpen hn may fits with ⟨e', final, accepted⟩ | unnumbered
      · rw [accepted] at h
        cases h
      · rw [requestSigned_of_unnumbered unnumbered] at h
        cases h
        exact ⟨_, rfl, .requestSigned unnumbered⟩
    · exact ⟨_, rfl, .opens may spent⟩
  | _ => cases h

/-! ## New engines -/

theorem ordinary_policyOf {c : TimeLockConfig} : Ordinary (policyOf c) := by
  have setPeriod {p : TimeLockPolicy} {operation : OperationType} {period : UInt64} :
      Ordinary (p.setPeriod operation period) := by
    unfold TimeLockPolicy.setPeriod
    exact .bind (ordinary_ensure nofun) fun _ => ordinary_ok
  have apply (p : TimeLockPolicy) (entry : String × OperationOverride) :
      Ordinary (applyOverride p entry) := by
    obtain ⟨name, period, window⟩ := entry
    cases period with
    | none => cases window <;> exact ordinary_ok
    | some period => cases window <;> exact .bind setPeriod.map fun _ => ordinary_ok
  unfold policyOf TimeLockPolicy.create
  exact .bind (.bind (ordinary_ensure nofun) fun _ => ordinary_ok) fun p => ordinary_foldlM apply _ p

theorem ordinary_initialAccess {owner : Option Identity} : Ordinary (initialAccess owner) := by
  have declared {r : AccessRegistry} {f : FunctionSchema} : Ordinary (r.registerFunction f) :=
    AccessRegistry.ordinary_registerFunction
  have granted {r : AccessRegistry} {id : RoleId} {s : Selector} {actions : List Action} :
      Ordinary (r.grant id s actions) := AccessRegistry.ordinary_grant
  unfold initialAccess
  refine .bind AccessRegistry.ordinary_defineRole fun _ => ?_
  cases owner with
  | none =>
    refine .bind ordinary_ok fun _ => ?_
    exact .bind declared fun _ => .bind declared fun _ => .bind granted fun _ => granted
  | some identity =>
    refine .bind AccessRegistry.ordinary_addMember fun _ => ?_
    exact .bind declared fun _ => .bind declared fun _ => .bind granted fun _ => granted

/-- A configuration is never refused for an internal fault. -/
theorem ordinary_create {config : EngineConfig} {clock : UInt64} {sink : EventSink}
    {dispatcher : Dispatcher} : Ordinary (create config clock sink dispatcher) := by
  unfold create
  refine .bind (ordinary_mapError nofun) fun _ => .bind (ordinary_mapError nofun) fun _ => ?_
  refine .bind (ordinary_mapError nofun) fun _ => .bind ordinary_policyOf fun _ => ?_
  refine .bind ordinary_initialAccess fun _ => .bind ?_ fun _ => ordinary_ok
  exact Catalog.ordinary_register.map

/-! ## Reached engines -/

/-- What an engine is asked besides commands does not fault internally. -/
structure AnswersOrdinarily (e : Engine) : Prop where
  closing : ∀ id t, Ordinary (e.prepareClosing id t)
  opening : ∀ q t, Ordinary (e.prepareOpening q t)
  record : ∀ id, Ordinary (e.ledger.get id)
  operation : ∀ id, Ordinary (e.catalog.lookup id)
  role : ∀ id, Ordinary (e.access.role id)
  function : ∀ s, Ordinary (e.access.function s)

theorem answersOrdinarily (e : Engine) : e.AnswersOrdinarily where
  closing _ _ := ordinary_prepareClosing
  opening _ _ := ordinary_prepareOpening
  record _ := Ledger.ordinary_get
  operation _ := Catalog.ordinary_lookup
  role _ := AccessRegistry.ordinary_role
  function _ := AccessRegistry.ordinary_function

/-- A command that opens a record finds all numbers used up, or one that submits a payload finds its
signer's nonces used up. -/
inductive Exhausted (e : Engine) (c : Command) : Breach → Prop where
  | numbers {q : Request} (asks : c.asksFor? e.identity = some q)
      (last : e.ledger.next.toNat + 1 = UInt64.size) : Exhausted e c .idsExhausted
  | nonces {tx : MetaTx.Signed} (submits : c.payload? = some tx)
      (last : (e.nonce tx.terms.signer).toNat + 1 = UInt64.size) :
      Exhausted e c (.nonceOverflow tx.terms.signer)

theorem nonce_of_spent {signer : Identity} (spent : ¬ e.HasNonce signer) :
    (e.nonce signer).toNat + 1 = UInt64.size := by
  have := (e.nonce signer).toNat_lt_size
  unfold HasNonce at spent
  omega

theorem WornOut.exhausted {breach : Breach} (h : e.WornOut c breach) : e.Exhausted c breach := by
  cases h with
  | request _ exhausted => exact .numbers rfl exhausted
  | requestPeriod _ exhausted => exact .numbers rfl exhausted
  | requestSigned unnumbered => exact .numbers rfl unnumbered.exhausted
  | opens _ spent => exact .nonces rfl (nonce_of_spent spent)
  | approves _ spent => exact .nonces rfl (nonce_of_spent spent)
  | cancels _ spent => exact .nonces rfl (nonce_of_spent spent)

/-- In every reached engine a command faults internally only because it needs a number or a nonce and
has found the last one, nothing else faults internally, and whatever is carried out, in whatever
surroundings, is completed or has failed. -/
theorem internal_faults_are_exhaustion {config : EngineConfig} {clock : UInt64} {sink : EventSink}
    {dispatcher : Dispatcher} (created : create config clock sink dispatcher = .ok e₀)
    (reached : Reaches e₀ e) :
    (∀ c fault, (e.step c).2 = .error fault → fault.kind = .internal →
      ∃ breach, fault = .internal breach ∧ e.Exhausted c breach) ∧
    e.AnswersOrdinarily ∧
    (∀ r, (e.carrying r).2.2.status = .completed ∨ (e.carrying r).2.2.status = .failed) ∧
    ∀ (ω : Type) (w : Surroundings ω) s r, (w.carryOut e.identity s r).2.status = .completed ∨
      (w.carryOut e.identity s r).2.status = .failed := by
  obtain ⟨cs, rfl⟩ := reaches_iff.mp reached
  have hn := (isNew_of_create created).numbered cs
  refine ⟨fun c fault h internal => ?faults, answersOrdinarily _, fun r => ?carried,
    fun ω w s r => ?surrounded⟩
  case faults =>
    obtain ⟨breach, hfault, worn⟩ := wornOut_of_step hn internal h
    exact ⟨breach, hfault, worn.exhausted⟩
  case carried => exact execute_status ..
  case surrounded => exact w.carryOut_status ..

/-- The first faults of this kind come after all the numbers but the last have been given out. -/
theorem sample_last_number : ∃ e₀, create Sample.config 100 (.memory []) .empty = .ok e₀ ∧
    let e := e₀.run Sample.exhausting
    (e.step (.requestSigned Sample.requestPayload Sample.relay)).2 =
        .error (.internal .idsExhausted) ∧
      e.ledger.next.toNat + 1 = UInt64.size := by
  obtain ⟨e₀, created, unnumbered, -⟩ := Sample.exists_exhausted
  have rejected := (WornOut.requestSigned unnumbered).step_eq
  obtain ⟨faults, -, -, -⟩ := internal_faults_are_exhaustion created
    (reaches_iff.mpr ⟨Sample.exhausting, rfl⟩)
  obtain ⟨breach, hbreach, exhausted⟩ := faults _ _ rejected rfl
  cases hbreach
  cases exhausted with
  | numbers _ last => exact ⟨e₀, created, rejected, last⟩

end Engine

end Countersign
