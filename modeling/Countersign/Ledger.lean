import Countersign.Data.Checked
import Countersign.Data.SortedSet
import Countersign.Fault

/-!
# The ledger

The `Ledger` holds every record under its number, the set of the pending ones and the next number.
Records are never removed, and a record that is no longer pending never changes: every operation on
a record goes through `pendingRecord`, and the next number is never in use.
-/

namespace Countersign

structure StatusCounts where
  pending : UInt64
  completed : UInt64
  cancelled : UInt64
  failed : UInt64
  deriving DecidableEq, Repr

namespace StatusCounts

def zero : StatusCounts := ⟨0, 0, 0, 0⟩

def add (c : StatusCounts) : Status → StatusCounts
  | .pending => { c with pending := c.pending + 1 }
  | .completed => { c with completed := c.completed + 1 }
  | .cancelled => { c with cancelled := c.cancelled + 1 }
  | .failed => { c with failed := c.failed + 1 }

def total (c : StatusCounts) : Nat :=
  c.pending.toNat + c.completed.toNat + c.cancelled.toNat + c.failed.toNat

end StatusCounts

structure Ledger where
  records : SortedMap TxId Record
  pending : SortedSet TxId
  next : UInt64
  deriving DecidableEq, Repr

namespace Ledger

def empty : Ledger := ⟨.empty, .empty, 1⟩

/-! ## Queries -/

def nextId (l : Ledger) : TxId := ⟨l.next⟩

def get (l : Ledger) (id : TxId) : Except Fault Record :=
  match l.records.get? id with
  | some r => .ok r
  | none => .error (.notFound id)

def pendingRecord (l : Ledger) (id : TxId) : Except Fault Record := do
  let r ← l.get id
  ensure (r.status = .pending) (.notPending id r.status)
  return r

def pendingIds (l : Ledger) : List TxId := l.pending.toList

def recordList (l : Ledger) : List Record := l.records.values

def size (l : Ledger) : Nat := l.records.size

def counts (l : Ledger) : StatusCounts :=
  l.recordList.foldl (fun c r => c.add r.status) .zero

/-! ## Operations -/

def opened (id : TxId) (request : Request) (handler : Selector) (createdAt releaseTime : UInt64)
    (openedBy : Action) : Record where
  id := id
  request := request
  status := .pending
  handler := handler
  createdAt := createdAt
  releaseTime := releaseTime
  message := none
  result := []
  payment := none
  history := [openedBy]

def put (l : Ledger) (id : TxId) (r : Record) : Ledger :=
  { l with records := l.records.insert id r }

/-- Stores a new pending record under the next number. That the number is in use is only noticed when
the record there has been overwritten. -/
def insert (l : Ledger) (request : Request) (handler : Selector) (createdAt releaseTime : UInt64)
    (openedBy : Action) : Ledger × Except Fault TxId :=
  let id := l.nextId
  match add? l.next 1 with
  | none => (l, .error (.internal .idsExhausted))
  | some next =>
    let stored := l.put id (opened id request handler createdAt releaseTime openedBy)
    if l.records.contains id then (stored, .error (.internal (.allocatedTwice id)))
    else ({ stored with pending := l.pending.insert id, next }, .ok id)

/-- Attaches a payment to a pending record, instead of an earlier one. -/
def attachPayment (l : Ledger) (id : TxId) (payment : Payment) : Except Fault Ledger := do
  let r ← l.pendingRecord id
  return l.put id { r with payment := some payment }

def recordActions (l : Ledger) (id : TxId) (actions : List Action) : Except Fault Ledger := do
  let r ← l.pendingRecord id
  return l.put id { r with history := r.history ++ actions }

/-- A record closed with a status and a result, by a meta-transaction if there is a message. -/
def closed (r : Record) (status : Status) (result : Bytes) (message : Option Digest) : Record :=
  { r with status := status, result := result, message := message.or r.message }

def finalize (l : Ledger) (id : TxId) (status : Status) (result : Bytes)
    (message : Option Digest) : Except Fault (Ledger × Record) := do
  ensure (status ≠ .pending) (.internal (.notFinal id status))
  let r ← l.pendingRecord id
  let final := closed r status result message
  return ({ l.put id final with pending := l.pending.erase id }, final)

end Ledger

end Countersign
