import Countersign.Access.Command
import Countersign.Engine.MetaTrack

/-!
# Commands and runs

A `Command` is anything that can happen to an engine: a registration, a lifecycle call, or a change of
the clock, the dispatcher or the sink around it. `Engine.step` carries one out, whether it is accepted
or rejected, and `Engine.run` a sequence of them.
-/

namespace Countersign

inductive Command where
  | access (change : AccessCommand)
  | registerOperation (id : OperationType) (name : String) (paths : List WorkflowPath)
  | setCancelWindow (operation : OperationType) (window : CancelWindow)
  | request (handler : Selector) (request : Request)
  | requestPeriod (caller : Identity) (update : Governance.PeriodUpdate)
  | attachPayment (id : TxId) (caller : Identity) (payment : Payment)
  | approve (id : TxId) (caller : Identity)
  | cancel (id : TxId) (caller : Identity)
  | approveSigned (tx : MetaTx.Signed) (relay : MetaTx.Relay)
  | cancelSigned (tx : MetaTx.Signed) (relay : MetaTx.Relay)
  | requestSigned (tx : MetaTx.Signed) (relay : MetaTx.Relay)
  | setClock (now : UInt64)
  | advanceClock (seconds : UInt64)
  | setDispatcher (setting : DispatcherSetting)
  | clearEvents
  deriving DecidableEq, Repr

inductive Reply where
  | done
  | access (reply : AccessReply)
  | operation (id : OperationType)
  | opened (id : TxId)
  | closed (record : Record)
  deriving DecidableEq, Repr

namespace Engine

variable (e : Engine)

/-! ## Registrations -/

/-- A function is declared only for a registered operation type. -/
def requireDeclarable : AccessCommand → Except Fault Unit
  | .registerFunction schema => (e.catalog.lookup schema.operation).map fun _ => ()
  | _ => .ok ()

def changeAccess (c : AccessCommand) : Engine × Except Fault AccessReply :=
  e.attempt (e.requireDeclarable c) fun () =>
  e.attempt (e.access.step c) fun (access, reply) => ({ e with access }, .ok reply)

def registerOperation (id : OperationType) (name : String) (paths : List WorkflowPath) :
    Engine × Except Fault OperationType :=
  e.attempt (e.catalog.register id name paths) fun (catalog, id) => ({ e with catalog }, .ok id)

/-! ## Steps -/

def replying {α : Type} (reply : α → Reply) (r : Engine × Except Fault α) :
    Engine × Except Fault Reply :=
  (r.1, r.2.map reply)

def step : Command → Engine × Except Fault Reply
  | .access change => replying .access (e.changeAccess change)
  | .registerOperation id name paths => replying .operation (e.registerOperation id name paths)
  | .setCancelWindow operation window =>
    ({ e with timelock := e.timelock.setCancelWindow operation window }, .ok .done)
  | .request handler r => replying .opened (e.request handler r)
  | .requestPeriod caller u => replying .opened (e.requestPeriod caller u)
  | .attachPayment id caller p => replying (fun _ => .done) (e.attachPayment id caller p)
  | .approve id caller => replying .closed (e.approve id caller)
  | .cancel id caller => replying .closed (e.cancel id caller)
  | .approveSigned tx relay => replying .closed (e.approveSigned tx relay)
  | .cancelSigned tx relay => replying .closed (e.cancelSigned tx relay)
  | .requestSigned tx relay => replying .closed (e.requestSigned tx relay)
  | .setClock now => ({ e with clock := now }, .ok .done)
  | .advanceClock seconds => ({ e with clock := e.clock + seconds }, .ok .done)
  | .setDispatcher setting =>
    ({ e with dispatcher := e.dispatcher.set setting }, .ok .done)
  | .clearEvents => ({ e with sink := e.sink.clear }, .ok .done)

def run (commands : List Command) : Engine := commands.foldl (fun e c => (e.step c).1) e

/-- `b` comes from `a` by some sequence of commands. -/
inductive Reaches : Engine → Engine → Prop where
  | refl (a : Engine) : Reaches a a
  | step {a b : Engine} (h : Reaches a b) (c : Command) : Reaches a (b.step c).1

end Engine

end Countersign
