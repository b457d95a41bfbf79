import Countersign.Ledger

/-!
# Changes of a ledger

A `LedgerCommand` is one of the ledger's operations with its arguments. `Ledger.step` carries it out,
whether it faults or not, and `Ledger.run` a sequence of them.
-/

namespace Countersign

inductive LedgerCommand where
  | insert (request : Request) (handler : Selector) (createdAt releaseTime : UInt64)
      (openedBy : Action)
  | attachPayment (id : TxId) (payment : Payment)
  | recordActions (id : TxId) (actions : List Action)
  | finalize (id : TxId) (status : Status) (result : Bytes) (message : Option Digest)
  deriving DecidableEq, Repr

inductive LedgerReply where
  | done
  | opened (id : TxId)
  | closed (record : Record)
  deriving DecidableEq, Repr

namespace Ledger

variable (l : Ledger)

/-- The ledger and the answer of an operation that changes nothing when it faults. -/
def settle (r : Except Fault (Ledger × LedgerReply)) : Ledger × Except Fault LedgerReply :=
  match r with
  | .ok (l, reply) => (l, .ok reply)
  | .error fault => (l, .error fault)

def step : LedgerCommand → Ledger × Except Fault LedgerReply
  | .insert request handler createdAt releaseTime openedBy =>
    let (l, id) := l.insert request handler createdAt releaseTime openedBy
    (l, id.map .opened)
  | .attachPayment id payment => l.settle ((l.attachPayment id payment).map (·, .done))
  | .recordActions id actions => l.settle ((l.recordActions id actions).map (·, .done))
  | .finalize id status result message =>
    l.settle ((l.finalize id status result message).map fun (l, r) => (l, .closed r))

def after (c : LedgerCommand) : Ledger := (l.step c).1

def run (cs : List LedgerCommand) : Ledger := cs.foldl after l

end Ledger

end Countersign
