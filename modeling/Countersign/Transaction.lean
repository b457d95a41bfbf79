import Countersign.Identifier

/-!
# Transaction records

A `Request` says what is to be done: an `Execution` on a target with a value. A `Record` is a request
on its way through the engine, with its `Status`, its times, an optional `Payment` released after a
successful call, and the lifecycle actions applied so far.
-/

namespace Countersign

/-- A quantity of 128 bits: a value, a payment, a gas price. -/
abbrev Amount := BitVec 128

/-! ## Status -/

/-- Where a record stands. All but `pending` are final. -/
inductive Status where
  | pending
  | completed
  | cancelled
  | failed
  deriving DecidableEq, Repr

namespace Status

def isTerminal (s : Status) : Bool := s != pending

def name : Status → String
  | pending => "PENDING"
  | completed => "COMPLETED"
  | cancelled => "CANCELLED"
  | failed => "FAILED"

def all : List Status := [pending, completed, cancelled, failed]

end Status

/-! ## Execution -/

inductive ExecutionKind where
  | none
  | standard
  | raw
  deriving DecidableEq, Repr

namespace ExecutionKind

/-- The number that stands for the form in what is signed. -/
def ordinal : ExecutionKind → UInt8
  | none => 0
  | standard => 1
  | raw => 2

def name : ExecutionKind → String
  | none => "NONE"
  | standard => "STANDARD"
  | raw => "RAW"

def all : List ExecutionKind := [none, standard, raw]

end ExecutionKind

/-- What an approved record dispatches: nothing, a call of a function with encoded parameters, or a
payload handed over as it is. -/
inductive Execution where
  | none
  | standard (selector : Selector) (params : Bytes)
  | raw (payload : Bytes)
  deriving DecidableEq, Repr

def Execution.kind : Execution → ExecutionKind
  | none => .none
  | standard .. => .standard
  | raw _ => .raw

/-! ## Requests and payments -/

/-- A payment; without `token` only the native amount is paid. -/
structure Payment where
  recipient : Identity
  nativeAmount : Amount
  token : Option Identity
  tokenAmount : Amount
  deriving DecidableEq, Repr

def Payment.isEmpty (p : Payment) : Bool := p.nativeAmount == 0 && p.tokenAmount == 0

/-- The caller's part of a record. -/
structure Request where
  requester : Identity
  target : Identity
  value : Amount
  gasLimit : UInt64
  operation : OperationType
  execution : Execution
  deriving DecidableEq, Repr

/-! ## Records -/

structure Record where
  id : TxId
  request : Request
  status : Status
  /-- The declared function through which the record was requested. -/
  handler : Selector
  createdAt : UInt64
  releaseTime : UInt64
  /-- The digest of the meta-transaction that closed the record, if one did. -/
  message : Option Digest
  result : Bytes
  payment : Option Payment
  /-- The lifecycle actions so far, in order. -/
  history : List Action
  deriving DecidableEq, Repr

namespace Record

def isPending (r : Record) : Bool := r.status == .pending

def operation (r : Record) : OperationType := r.request.operation

end Record

end Countersign
