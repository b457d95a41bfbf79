import Countersign.Transaction

/-!
# Lifecycle events

Every change of a record's status is told to an `EventSink` as an `Event`. A memory sink keeps what it
is told, in order; a fan-out passes it on to each of its sinks; a silent sink drops it.
-/

namespace Countersign

inductive EventKind where
  | requested (requester : Identity) (releaseTime : UInt64)
  | approved (actor : Identity) (action : Action)
  | cancelled (actor : Identity) (action : Action)
  | executed (status : Status) (result : Bytes)
  deriving DecidableEq, Repr

def EventKind.name : EventKind → String
  | requested .. => "Requested"
  | approved .. => "Approved"
  | cancelled .. => "Cancelled"
  | executed .. => "Executed"

/-- A change of a record, with the clock at that time. -/
structure Event where
  txId : TxId
  operation : OperationType
  time : UInt64
  kind : EventKind
  deriving DecidableEq, Repr

inductive EventSink where
  | memory (events : List Event)
  | fanOut (sinks : List EventSink)
  | silent
  deriving Repr

namespace EventSink

mutual

def emit (e : Event) : EventSink → EventSink
  | memory events => memory (events ++ [e])
  | fanOut sinks => fanOut (emitAll e sinks)
  | silent => silent

/-- The sinks after each has been told an event. -/
def emitAll (e : Event) : List EventSink → List EventSink
  | [] => []
  | s :: rest => emit e s :: emitAll e rest

end

mutual

def clear : EventSink → EventSink
  | memory _ => memory []
  | fanOut sinks => fanOut (clearAll sinks)
  | silent => silent

def clearAll : List EventSink → List EventSink
  | [] => []
  | s :: rest => clear s :: clearAll rest

end

mutual

/-- What each memory in a sink holds. -/
def memories : EventSink → List (List Event)
  | memory events => [events]
  | fanOut sinks => memoriesAll sinks
  | silent => []

def memoriesAll : List EventSink → List (List Event)
  | [] => []
  | s :: rest => memories s ++ memoriesAll rest

end

end EventSink

end Countersign
