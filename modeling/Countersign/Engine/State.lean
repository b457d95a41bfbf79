import Countersign.Access.Registry
import Countersign.Config
import Countersign.Event
import Countersign.Governance
import Countersign.Ledger
import Countersign.MetaTx.Verifier
import Countersign.Workflow.Catalog

/-!
# The engine

An `Engine` is the state of all components together with the clock, the event sink and the dispatcher
it works with. `Engine.create` builds one from a configuration: the owner's role, and the operation
type through which time-locks are governed.
-/

namespace Countersign

/-- The state of an engine and of what it works with. -/
structure Engine where
  identity : Identity
  access : AccessRegistry
  catalog : Catalog
  timelock : TimeLockPolicy
  verifier : MetaTx.Verifier
  ledger : Ledger
  clock : UInt64
  sink : EventSink
  dispatcher : Dispatcher
  deriving Repr

namespace Engine

/-! ## Construction -/

def delayActions : List Action := [.timeDelayRequest, .timeDelayApprove, .timeDelayCancel]

def metaActions : List Action :=
  [.signMetaRequestAndApprove, .signMetaApprove, .signMetaCancel, .executeMetaRequestAndApprove,
    .executeMetaApprove, .executeMetaCancel]

/-- The policy with what a configuration says about one operation type. -/
def applyOverride (p : TimeLockPolicy) (entry : String × OperationOverride) :
    Except Fault TimeLockPolicy := do
  let operation := OperationType.ofName entry.1
  let p ← match entry.2.period with
    | none => pure p
    | some period => (p.setPeriod operation period).map Prod.fst
  match entry.2.cancelWindow with
  | none => return p
  | some window => return p.setCancelWindow operation window

def policyOf (c : TimeLockConfig) : Except Fault TimeLockPolicy := do
  let p ← TimeLockPolicy.create c.defaultPeriod
  c.overrides.entries.foldlM applyOverride p

def governanceParams : List FunctionParam := [⟨"operationType", "bytes32"⟩, ⟨"periodSecs", "uint64"⟩]

def initialCatalog : Except Fault Catalog :=
  (Catalog.empty.registerNamed Governance.operationName WorkflowPath.standardSet).map Prod.fst

/-- The roles, functions and grants of a new engine. -/
def initialAccess (owner : Option Identity) : Except Fault AccessRegistry := do
  let (r, role) ← AccessRegistry.empty.defineRole RoleId.ownerName 1 true
  let r ← match owner with
    | none => pure r
    | some identity => r.addMember role identity
  let (r, request) ← r.registerFunction
    (.ofSignature Governance.requestSignature Governance.operation delayActions governanceParams)
  let (r, signed) ← r.registerFunction
    (.ofSignature Governance.metaSignature Governance.operation metaActions governanceParams)
  let r ← r.grant role request delayActions
  r.grant role signed metaActions

def create (c : EngineConfig) (clock : UInt64) (sink : EventSink) (dispatcher : Dispatcher) :
    Except Fault Engine := do
  (c.validate).mapError Fault.invalidConfig
  let identity ← c.identity.mapError Fault.invalidConfig
  let owner ← c.ownerIdentity.mapError Fault.invalidConfig
  let timelock ← policyOf c.timelock
  let access ← initialAccess owner
  let catalog ← initialCatalog
  return {
    identity, access, catalog, timelock
    verifier := .create c.chainId identity
    ledger := .empty
    clock, sink, dispatcher }

/-! ## Queries -/

variable (e : Engine)

def chainId : UInt64 := e.verifier.chainId

def owner : Option Identity :=
  match e.access.roles.get? RoleId.owner with
  | some role => role.members.toList.head?
  | none => none

def nonce (signer : Identity) : UInt64 := e.verifier.nonce signer

def inspect : String :=
  "SecureOperationEngine \x7b identity: " ++ e.identity.inspect ++ ", chain_id: " ++
    toString e.chainId ++ ", transactions: " ++ toString e.ledger.size ++ ", pending: " ++
    toString e.ledger.pending.size ++ ", .. \x7d"

/-- The diagnostic text of a shared engine, which shows nothing of its state. -/
def inspectShared : String := "EngineHandle \x7b .. \x7d"

/-! ## Effects -/

/-- Goes on with the value of a component's operation; a fault leaves the engine as it is by then. -/
def attempt {α β : Type} (r : Except Fault α) (next : α → Engine × Except Fault β) :
    Engine × Except Fault β :=
  match r with
  | .ok a => next a
  | .error fault => (e, .error fault)

@[simp] theorem attempt_ok {α β : Type} (a : α) (next : α → Engine × Except Fault β) :
    e.attempt (.ok a) next = next a := rfl

@[simp] theorem attempt_error {α β : Type} (fault : Fault) (next : α → Engine × Except Fault β) :
    e.attempt (.error fault) next = (e, .error fault) := rfl

def emit (id : TxId) (operation : OperationType) (kind : EventKind) : Engine :=
  { e with sink := e.sink.emit ⟨id, operation, e.clock, kind⟩ }

end Engine

end Countersign
