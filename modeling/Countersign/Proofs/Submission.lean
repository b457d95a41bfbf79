import Countersign.Proofs.Run

/-!
# Submitted payloads

`MetaStep.submit` is the command that submits a payload for a step, and `Engine.accepted` lists the
payloads that are accepted along a run. Nothing else ever touches a nonce.
-/

namespace Countersign

open MetaTx (MetaStep)

/-- The command that submits a payload for a step. -/
def MetaTx.MetaStep.submit (step : MetaStep) (tx : MetaTx.Signed) (relay : MetaTx.Relay) :
    Command :=
  match step with
  | requestAndApprove => .requestSigned tx relay
  | approve => .approveSigned tx relay
  | cancel => .cancelSigned tx relay

/-- The payload that a command submits, if it submits one. -/
def Command.payload? : Command → Option MetaTx.Signed
  | approveSigned tx _ => some tx
  | cancelSigned tx _ => some tx
  | requestSigned tx _ => some tx
  | _ => none

@[simp] theorem Command.payload?_submit (step : MetaStep) (tx : MetaTx.Signed)
    (relay : MetaTx.Relay) : (step.submit tx relay).payload? = some tx := by
  cases step <;> rfl

namespace Engine

variable {e e' : Engine} {c : Command} {cs ds : List Command} {tx : MetaTx.Signed}
  {relay : MetaTx.Relay} {reply : Reply} {step : MetaStep}

/-- A payload that fails its checks is rejected with their fault. -/
theorem step_submit_of_error {fault : Fault}
    (closing : step ≠ .requestAndApprove → e.checkClosing step tx relay = .error fault)
    (opening : step = .requestAndApprove → e.checkOpening tx relay = .error fault) :
    e.step (step.submit tx relay) = (e, .error fault) := by
  cases step with
  | approve =>
    rw [MetaStep.submit, Engine.step, approveSigned, closing (by decide), attempt_error]
    rfl
  | cancel =>
    rw [MetaStep.submit, Engine.step, cancelSigned, closing (by decide), attempt_error]
    rfl
  | requestAndApprove =>
    rw [MetaStep.submit, Engine.step, requestSigned, opening rfl, attempt_error]
    rfl

/-! ## Accepted payloads -/

/-- The payload that is accepted in a step, if there is one. -/
def acceptedAt (e : Engine) (c : Command) : List MetaTx.Signed :=
  match (e.step c).2 with
  | .ok _ => c.payload?.toList
  | .error _ => []

/-- The payloads that are accepted along a run, in order. -/
def accepted : Engine → List Command → List MetaTx.Signed
  | _, [] => []
  | e, c :: cs => e.acceptedAt c ++ (e.step c).1.accepted cs

theorem acceptedAt_of_none (h : c.payload? = none) : e.acceptedAt c = [] := by
  unfold acceptedAt
  rw [h]
  split <;> rfl

theorem acceptedAt_of_ok (h : (e.step (step.submit tx relay)).2 = .ok reply) :
    e.acceptedAt (step.submit tx relay) = [tx] := by
  unfold acceptedAt
  rw [h, Command.payload?_submit]
  rfl

theorem accepted_append : e.accepted (cs ++ ds) = e.accepted cs ++ (e.run cs).accepted ds := by
  induction cs generalizing e with
  | nil => rfl
  | cons c cs ih => rw [List.cons_append, accepted, ih, accepted, List.append_assoc]; rfl

theorem accepted_of_none (h : ∀ c ∈ cs, c.payload? = none) : e.accepted cs = [] := by
  induction cs generalizing e with
  | nil => rfl
  | cons c cs ih =>
    obtain ⟨hc, hcs⟩ := List.forall_mem_cons.mp h
    rw [accepted, acceptedAt_of_none hc, ih hcs, List.append_nil]

/-- An accepted command that submits a payload has its signatures and permissions and uses up its
nonce; any other leaves the verifier as it is. -/
theorem Accepts.verifier_cases (h : e.Accepts c e' reply) :
    (c.payload? = none ∧ e'.verifier = e.verifier) ∨
      ∃ step tx relay, c = step.submit tx relay ∧ e.SignedFor step tx relay ∧
        e.HasNonce tx.terms.signer ∧ e'.verifier = e.verifier.spend tx.terms.signer := by
  cases h with
  | approveSigned may fits => exact .inr ⟨.approve, _, _, rfl, may.toSignedFor, fits, rfl⟩
  | cancelSigned may fits => exact .inr ⟨.cancel, _, _, rfl, may.toSignedFor, fits, rfl⟩
  | requestSigned may fits =>
    exact .inr ⟨.requestAndApprove, _, _, rfl, may.toSignedFor, fits, rfl⟩
  | _ => exact .inl ⟨rfl, rfl⟩

/-- An accepted payload, whatever the step. -/
structure Submitted (e : Engine) (step : MetaStep) (tx : MetaTx.Signed) (relay : MetaTx.Relay) :
    Prop where
  signed : e.SignedFor step tx relay
  fits : e.HasNonce tx.terms.signer
  spent : (e.step (step.submit tx relay)).1.verifier = e.verifier.spend tx.terms.signer

theorem submitted_of_ok (h : (e.step (step.submit tx relay)).2 = .ok reply) :
    e.Submitted step tx relay := by
  have ha : e.Accepts (step.submit tx relay) (e.step (step.submit tx relay)).1 reply :=
    step_eq_ok_iff.mp (step_eq_of_ok h)
  rcases ha.verifier_cases with ⟨hn, -⟩ | ⟨step', tx', relay', hc, hs, hf, hv⟩
  · rw [Command.payload?_submit] at hn
    cases hn
  · have hsubmit : step = step' ∧ tx = tx' ∧ relay = relay' := by
      cases step <;> cases step' <;> cases hc <;> exact ⟨rfl, rfl, rfl⟩
    obtain ⟨rfl, rfl, rfl⟩ := hsubmit
    exact ⟨hs, hf, hv⟩

theorem mem_acceptedAt : tx ∈ e.acceptedAt c ↔
    ∃ (step : MetaStep) (relay : MetaTx.Relay) (reply : Reply),
      c = step.submit tx relay ∧ (e.step c).2 = .ok reply := by
  unfold acceptedAt
  constructor
  · intro h
    split at h
    · next reply hr =>
      rw [Option.mem_toList] at h
      cases c with
      | approveSigned t relay => cases h; exact ⟨.approve, relay, reply, rfl, hr⟩
      | cancelSigned t relay => cases h; exact ⟨.cancel, relay, reply, rfl, hr⟩
      | requestSigned t relay => cases h; exact ⟨.requestAndApprove, relay, reply, rfl, hr⟩
      | _ => cases h
    · cases h
  · rintro ⟨step, relay, reply, rfl, hr⟩
    rw [hr]
    simp

/-- The payloads of a run are those that some step of it accepts. -/
theorem mem_accepted : tx ∈ e.accepted cs ↔
    ∃ (pre : List Command) (step : MetaStep) (relay : MetaTx.Relay) (post : List Command)
      (reply : Reply), cs = pre ++ step.submit tx relay :: post ∧
      ((e.run pre).step (step.submit tx relay)).2 = .ok reply := by
  induction cs generalizing e with
  | nil => simp [accepted]
  | cons c cs ih =>
    rw [accepted, List.mem_append, mem_acceptedAt, ih]
    constructor
    · rintro (⟨step, relay, reply, rfl, hr⟩ | ⟨pre, step, relay, post, reply, rfl, hr⟩)
      · exact ⟨[], step, relay, cs, reply, rfl, hr⟩
      · exact ⟨c :: pre, step, relay, post, reply, rfl, hr⟩
    · rintro ⟨pre, step, relay, post, reply, hc, hr⟩
      cases pre with
      | nil =>
        cases hc
        exact .inl ⟨step, relay, reply, rfl, hr⟩
      | cons c' pre =>
        cases hc
        exact .inr ⟨pre, step, relay, post, reply, rfl, hr⟩

end Engine

/-!
## A run

The owner declares a function, requests a payment through it and changes the payment twice, the
second time back to the first one. A payload that was signed in between, after the first change,
approves it.
-/

namespace Sample

open Engine (delayActions metaActions)

/-- Who requests, signs and relays: the key of the seed with 32 bytes of 5. -/
def owner : Identity :=
  ⟨⟨[110, 122, 28, 221, 41, 176, 183, 143, 209, 58, 244, 197, 89, 143, 239, 244, 239, 42, 151, 22,
    110, 60, 166, 242, 228, 251, 252, 205, 128, 80, 91, 241], rfl⟩⟩

def config : EngineConfig := { EngineConfig.development with owner := some owner.hex }

def pay : OperationType := .ofName "PAY"

def function : FunctionSchema := .ofSignature "pay()" pay (delayActions ++ metaActions) []

def request : Request := ⟨owner, ⟨.replicate 32 9⟩, 0, 0, pay, .none⟩

def payment : Payment := ⟨⟨.replicate 32 1⟩, 1, none, 0⟩

def otherPayment : Payment := ⟨⟨.replicate 32 2⟩, 1, none, 0⟩

def txId : TxId := ⟨1⟩

def draft : MetaTx.Draft :=
  .of ⟨txId, request, some payment⟩ ⟨config.chainId, EngineConfig.standardIdentity,
    function.selector, .signMetaApprove, 1000, 0, owner, 0⟩

/-- The draft with the owner's signature. -/
def payload : MetaTx.Signed :=
  draft.withSignature
    [106, 3, 32, 237, 40, 58, 108, 153, 165, 169, 127, 190, 42, 108, 115, 30, 48, 247, 88, 143, 77,
      92, 101, 105, 2, 94, 38, 13, 218, 105, 137, 239, 166, 149, 189, 140, 60, 69, 91, 34, 202, 23,
      177, 61, 55, 165, 179, 206, 121, 228, 251, 238, 233, 142, 156, 49, 171, 30, 194, 132, 131, 5,
      46, 1]

def relay : MetaTx.Relay := ⟨owner, 0⟩

/-- Up to the first payment. -/
def opening : List Command :=
  [.registerOperation pay "PAY" WorkflowPath.standardSet,
    .access (.registerFunction function),
    .access (.grant RoleId.owner function.selector (delayActions ++ metaActions)),
    .request function.selector request,
    .attachPayment txId owner payment]

/-- The declarations alone. -/
def declarations : List Command := opening.take 3

/-- The payment is changed. -/
def changed : List Command := opening ++ [.attachPayment txId owner otherPayment]

/-- The payment is changed back. -/
def restored : List Command := changed ++ [.attachPayment txId owner payment]

/-- The payload approves the record. -/
def commands : List Command := restored ++ [MetaStep.approve.submit payload relay]

/-- Whether the engine satisfies a condition after some commands. -/
def holds (commands : List Command) (p : Engine → Bool) : Bool :=
  match Engine.create config 100 (.memory []) .empty with
  | .ok e => p (e.run commands)
  | .error _ => false

theorem exists_of_holds {commands : List Command} {p : Engine → Bool}
    (h : holds commands p = true) :
    ∃ e₀, Engine.create config 100 (.memory []) .empty = .ok e₀ ∧ p (e₀.run commands) = true := by
  unfold holds at h
  split at h
  · next e₀ hc => exact ⟨e₀, hc, h⟩
  · cases h

theorem completes : holds restored (fun e =>
    match e.step (MetaStep.approve.submit payload relay) with
    | (e', .ok _) => decide (e'.ledger.statusAt txId = some .completed ∧ e'.ledger.next = 2 ∧
        e'.clock = 100)
    | (_, .error _) => false) = true := by
  decide +kernel

theorem exists_completed : ∃ e reply, Engine.create config 100 (.memory []) .empty = .ok e ∧
    ((e.run restored).step (MetaStep.approve.submit payload relay)).2 = .ok reply ∧
    (e.run commands).ledger.statusAt txId = some .completed ∧
    (e.run commands).ledger.next = 2 ∧ (e.run commands).clock = 100 := by
  obtain ⟨e, created, h⟩ := exists_of_holds completes
  split at h
  · next e' reply hs =>
    have hrun : e.run commands = e' := by rw [commands, Engine.run_concat, hs]
    refine ⟨e, reply, created, by rw [hs], ?_⟩
    rw [hrun]
    exact of_decide_eq_true h
  · cases h

end Sample

end Countersign
