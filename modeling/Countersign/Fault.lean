import Countersign.Signature.SigningKey
import Countersign.Transaction

/-!
# Faults

A `Fault` is why the engine rejects a call. Faults carry their cause, and `Fault.message` words it;
`Fault.kind` says what the caller can do about it.
-/

namespace Countersign

/-! ## Causes -/

inductive RoleFlaw where
  | emptyName
  | noMembers (name : String)
  | otherLimits (name : String)
  deriving DecidableEq, Repr

def RoleFlaw.message : RoleFlaw → String
  | emptyName => "empty role name"
  | noMembers name => name ++ ": max_members must be at least 1"
  | otherLimits name => name ++ ": already defined with different limits"

inductive WorkflowFlaw where
  | emptyName
  | noPath (name : String)
  | tooShort (path : String)
  | badStart (path : String)
  | badEnd (path : String)
  | badMiddle (path : String)
  deriving DecidableEq, Repr

def WorkflowFlaw.message : WorkflowFlaw → String
  | emptyName => "empty operation name"
  | noPath name => name ++ ": at least one path is required"
  | tooShort path => "path '" ++ path ++ "' needs at least two actions"
  | badStart path => "path '" ++ path ++ "' must start with a request action"
  | badEnd path => "path '" ++ path ++ "' must end with a terminal action"
  | badMiddle path => "path '" ++ path ++ "' has a request or terminal action in the middle"

inductive ExecutionFlaw where
  | engineTarget
  | engineValue
  | engineForm
  | engineFunction
  | enginePeriod
  | engineParams
  | valueWithoutCall
  | zeroSelector
  | emptyPayload
  | zeroTarget
  deriving DecidableEq, Repr

def ExecutionFlaw.message : ExecutionFlaw → String
  | engineTarget => "only TIMELOCK_UPDATE may target the engine"
  | engineValue => "engine calls carry no value"
  | engineForm => "engine calls must be standard calls"
  | engineFunction => "unknown engine call"
  | enginePeriod => "time-lock period must be greater than zero"
  | engineParams => "malformed time-lock update parameters"
  | valueWithoutCall => "value requires a dispatched call"
  | zeroSelector => "zero selector"
  | emptyPayload => "empty raw payload"
  | zeroTarget => "zero target"

inductive PaymentFlaw where
  | engineTarget
  | zeroRecipient
  | noToken
  deriving DecidableEq, Repr

def PaymentFlaw.message : PaymentFlaw → String
  | engineTarget => "engine calls carry no payment"
  | zeroRecipient => "zero recipient"
  | noToken => "token amount without token"

inductive IdentityField where
  | engine
  | owner
  deriving DecidableEq, Repr

inductive ConfigFlaw where
  | unreadable (field : IdentityField) (reason : ReadError)
  | zeroEngine
  | zeroPeriod (name : String)
  deriving DecidableEq, Repr

def IdentityField.name : IdentityField → String
  | engine => "engine_identity"
  | owner => "owner"

def ConfigFlaw.message : ConfigFlaw → String
  | unreadable field reason => "invalid " ++ field.name ++ ": " ++ reason.message
  | zeroEngine => "invalid " ++ IdentityField.engine.name ++ ": must not be zero"
  | zeroPeriod name => "time-lock period for " ++ name ++ " must be greater than zero"

/-- A state that the engine itself must rule out, or a counter at its end. -/
inductive Breach where
  | idsExhausted
  | allocatedTwice (id : TxId)
  | notFinal (id : TxId) (status : Status)
  | nonceOverflow (signer : Identity)
  deriving DecidableEq, Repr

def Breach.message : Breach → String
  | idsExhausted => "transaction id space exhausted"
  | allocatedTwice id => id.label ++ " allocated twice"
  | notFinal id status => id.label ++ " cannot be finalized as " ++ status.name
  | nonceOverflow signer => "nonce overflow for " ++ signer.label

/-! ## Faults -/

inductive Fault where
  | unknownOperationType (operation : OperationType)
  | invalidOperationType (operation : OperationType)
  | operationTypeExists (name : String)
  | invalidWorkflow (flaw : WorkflowFlaw)
  | workflowViolation (operation : OperationType) (action : Action)
  | unknownFunction (selector : Selector)
  | functionExists (selector : Selector)
  | handlerMismatch (selector : Selector) (declared requested : OperationType)
  | unsupportedAction (selector : Selector) (action : Action)
  | unknownRole (role : RoleId)
  | roleExists (name : String)
  | invalidRole (flaw : RoleFlaw)
  | roleFull (role : RoleId) (maxMembers : UInt64)
  | alreadyMember (role : RoleId) (identity : Identity)
  | notMember (role : RoleId) (identity : Identity)
  | protectedRole (role : RoleId)
  | invalidExecution (flaw : ExecutionFlaw)
  | invalidPayment (flaw : PaymentFlaw)
  | invalidPeriod (period : UInt64)
  | timeOverflow
  | notFound (id : TxId)
  | notPending (id : TxId) (status : Status)
  | chainMismatch (expected got : UInt64)
  | contractMismatch (got : Identity)
  | actionMismatch (expected got : Action)
  | snapshotMismatch (id : TxId)
  | digestMismatch
  | callDataMismatch
  | requesterMismatch (requester signer : Identity)
  | gasPriceExceeded (max actual : Amount)
  | invalidConfig (flaw : ConfigFlaw)
  | unauthorized (identity : Identity) (selector : Selector) (action : Action)
  | notRequester (id : TxId) (caller : Identity)
  | invalidSignature (refusal : Ed25519.Refusal)
  | timeLockRunning (id : TxId) (releaseTime now : UInt64)
  | expired (deadline now : UInt64)
  | nonceReplayed (signer : Identity) (expected got : UInt64)
  | internal (breach : Breach)
  deriving DecidableEq, Repr

/-- What the caller can do about a fault. -/
inductive Fault.Kind where
  /-- Correct the request. -/
  | validation
  /-- Obtain the grant or a valid signature. -/
  | authorization
  /-- Wait, or have a fresh payload signed. -/
  | timing
  /-- Ask for the signer's nonce and sign again. -/
  | replay
  /-- Nothing: the engine is inconsistent or worn out. -/
  | internal
  deriving DecidableEq, Repr

def Fault.Kind.name : Fault.Kind → String
  | validation => "Validation"
  | authorization => "Authorization"
  | timing => "Timing"
  | replay => "Replay"
  | internal => "Internal"

namespace Fault

def kind : Fault → Kind
  | unauthorized .. | notRequester .. | invalidSignature _ => .authorization
  | timeLockRunning .. | expired .. => .timing
  | nonceReplayed .. => .replay
  | internal _ => .internal
  | _ => .validation

def name : Fault → String
  | unknownOperationType _ => "UnknownOperationType"
  | invalidOperationType _ => "InvalidOperationType"
  | operationTypeExists _ => "OperationTypeAlreadyExists"
  | invalidWorkflow _ => "InvalidWorkflow"
  | workflowViolation .. => "WorkflowViolation"
  | unknownFunction _ => "UnknownFunction"
  | functionExists _ => "FunctionAlreadyExists"
  | handlerMismatch .. => "HandlerMismatch"
  | unsupportedAction .. => "UnsupportedAction"
  | unknownRole _ => "UnknownRole"
  | roleExists _ => "RoleAlreadyExists"
  | invalidRole _ => "InvalidRoleDefinition"
  | roleFull .. => "RoleFull"
  | alreadyMember .. => "AlreadyMember"
  | notMember .. => "NotMember"
  | protectedRole _ => "ProtectedRole"
  | invalidExecution _ => "InvalidExecutionPayload"
  | invalidPayment _ => "InvalidPayment"
  | invalidPeriod _ => "InvalidTimeLockPeriod"
  | timeOverflow => "TimeOverflow"
  | notFound _ => "NotFound"
  | notPending .. => "NotPending"
  | chainMismatch .. => "ChainIdMismatch"
  | contractMismatch _ => "HandlerContractMismatch"
  | actionMismatch .. => "ActionMismatch"
  | snapshotMismatch _ => "SnapshotMismatch"
  | digestMismatch => "DigestMismatch"
  | callDataMismatch => "CallDataMismatch"
  | requesterMismatch .. => "RequesterMismatch"
  | gasPriceExceeded .. => "GasPriceExceeded"
  | invalidConfig _ => "Config"
  | unauthorized .. => "Unauthorized"
  | notRequester .. => "NotRequester"
  | invalidSignature _ => "InvalidSignature"
  | timeLockRunning .. => "TimeLockNotExpired"
  | expired .. => "Expired"
  | nonceReplayed .. => "NonceReplayed"
  | internal _ => "Invariant"

def message : Fault → String
  | unknownOperationType operation => "unknown operation type: " ++ operation.label
  | invalidOperationType operation => "invalid operation type: " ++ operation.label
  | operationTypeExists name =>
    "operation type already registered with different content: " ++ name
  | invalidWorkflow flaw => "invalid workflow: " ++ flaw.message
  | workflowViolation operation action =>
    "action " ++ action.name ++ " is not on a declared workflow path of " ++ operation.label
  | unknownFunction selector => "unknown function: " ++ selector.label
  | functionExists selector =>
    "function already declared with different content: " ++ selector.label
  | handlerMismatch selector declared requested =>
    "function " ++ selector.label ++ " belongs to " ++ declared.label ++ ", not " ++
      requested.label
  | unsupportedAction selector action =>
    "function " ++ selector.label ++ " does not support action " ++ action.name
  | unknownRole role => "unknown role: " ++ role.label
  | roleExists name => "protected role already exists: " ++ name
  | invalidRole flaw => "invalid role definition: " ++ flaw.message
  | roleFull role maxMembers =>
    "role " ++ role.label ++ " is full (" ++ toString maxMembers ++ " members)"
  | alreadyMember role identity => identity.label ++ " is already a member of " ++ role.label
  | notMember role identity => identity.label ++ " is not a member of " ++ role.label
  | protectedRole role => "members cannot be removed from protected role " ++ role.label
  | invalidExecution flaw => "invalid execution payload: " ++ flaw.message
  | invalidPayment flaw => "invalid payment: " ++ flaw.message
  | invalidPeriod period => "invalid time-lock period: " ++ toString period ++ "s"
  | timeOverflow => "time arithmetic overflow"
  | notFound id => "transaction not found: " ++ id.label
  | notPending id status => "transaction " ++ id.label ++ " is " ++ status.name ++ ", not PENDING"
  | chainMismatch expected got =>
    "chain id mismatch: expected " ++ toString expected ++ ", got " ++ toString got
  | contractMismatch got => "meta-transaction addressed to " ++ got.label ++ ", not this engine"
  | actionMismatch expected got =>
    "meta-transaction action " ++ got.name ++ " cannot be used here (expected " ++
      expected.name ++ ")"
  | snapshotMismatch id => "record snapshot does not match stored transaction " ++ id.label
  | digestMismatch => "submitted digest does not match the recomputed digest"
  | callDataMismatch => "encoded call data does not match handler and digest"
  | requesterMismatch requester signer =>
    "request-and-approve requester " ++ requester.label ++ " is not the signer " ++ signer.label
  | gasPriceExceeded max actual =>
    "gas price " ++ toString actual.toNat ++ " exceeds signed maximum " ++ toString max.toNat
  | invalidConfig flaw => "invalid configuration: " ++ flaw.message
  | unauthorized identity selector action =>
    identity.label ++ " is not granted " ++ action.name ++ " on " ++ selector.label
  | notRequester id caller => caller.label ++ " is not the requester of " ++ id.label
  | invalidSignature refusal => "invalid signature: " ++ refusal.message
  | timeLockRunning id releaseTime now =>
    "time-lock of " ++ id.label ++ " releases at " ++ toString releaseTime ++ ", now " ++
      toString now
  | expired deadline now =>
    "meta-transaction expired at " ++ toString deadline ++ ", now " ++ toString now
  | nonceReplayed signer expected got =>
    "nonce replayed for " ++ signer.label ++ ": expected " ++ toString expected ++ ", got " ++
      toString got
  | internal breach => "internal invariant violated: " ++ breach.message

end Fault

/-! ## Checks -/

/-- Goes on if the condition holds and faults otherwise. -/
def ensure (c : Prop) [Decidable c] (fault : Fault) : Except Fault Unit :=
  if c then .ok () else .error fault

@[simp] theorem ensure_eq_ok_iff {c : Prop} [Decidable c] {fault : Fault} {u : Unit} :
    ensure c fault = .ok u ↔ c := by
  unfold ensure
  split <;> simp_all

theorem ensure_eq_error_iff {c : Prop} [Decidable c] {fault e : Fault} :
    ensure c fault = .error e ↔ ¬c ∧ fault = e := by
  unfold ensure
  split <;> simp_all

theorem bind_eq_ok_iff {ε α β : Type} {x : Except ε α} {f : α → Except ε β} {b : β} :
    x >>= f = .ok b ↔ ∃ a, x = .ok a ∧ f a = .ok b := by
  cases x with
  | ok a => simp [bind, Except.bind]
  | error fault => simp [bind, Except.bind]

/-- A sequence of operations faults with the first of its operations that does. -/
theorem bind_eq_error_iff {α β : Type} {x : Except Fault α} {f : α → Except Fault β}
    {fault : Fault} :
    x >>= f = .error fault ↔ x = .error fault ∨ ∃ a, x = .ok a ∧ f a = .error fault := by
  cases x with
  | ok a => simp [bind, Except.bind]
  | error e => simp [bind, Except.bind]

theorem map_eq_error_iff {α β : Type} {x : Except Fault α} {f : α → β} {fault : Fault} :
    x.map f = .error fault ↔ x = .error fault := by
  cases x with
  | ok a => simp [Except.map]
  | error e => simp [Except.map]

theorem map_eq_ok_iff {α β : Type} {x : Except Fault α} {f : α → β} {b : β} :
    x.map f = .ok b ↔ ∃ a, x = .ok a ∧ f a = b := by
  cases x with
  | ok a => simp [Except.map]
  | error fault => simp [Except.map]

theorem mapError_eq_ok_iff {ε ε' α : Type} {x : Except ε α} {f : ε → ε'} {a : α} :
    x.mapError f = .ok a ↔ x = .ok a := by
  cases x with
  | ok b =>
    show Except.ok b = Except.ok a ↔ _
    rw [Except.ok.injEq, Except.ok.injEq]
  | error e => exact ⟨nofun, nofun⟩

/-- What a check answers is known. -/
theorem exists_unit_iff {c : Unit → Prop} : (∃ u, c u) ↔ c () :=
  ⟨fun ⟨_, h⟩ => h, fun h => ⟨(), h⟩⟩

theorem pure_eq_ok_iff {ε α : Type} {a b : α} : (pure a : Except ε α) = .ok b ↔ a = b := by
  simp [pure, Except.pure]

end Countersign
