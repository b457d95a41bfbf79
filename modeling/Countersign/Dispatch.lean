import Countersign.Data.SortedMap
import Countersign.Transaction

/-!
# Dispatch

An approved record is carried out by one `Call` to its target and, after that has succeeded, one
payment, in whatever `Surroundings` take these. In those of an engine (`execute`) a handler of its own
takes the calls that target it, and all others go to the `Dispatcher`, which keeps a list of the calls
and payments it has received.
-/

namespace Countersign

/-! ## Calls -/

inductive CallPayload where
  | standard (selector : Selector) (params : Bytes)
  | raw (payload : Bytes)
  deriving DecidableEq, Repr

structure Call where
  txId : TxId
  target : Identity
  value : Amount
  gasLimit : UInt64
  payload : CallPayload
  deriving DecidableEq, Repr

def Execution.payload? : Execution → Option CallPayload
  | .none => Option.none
  | .standard selector params => some (.standard selector params)
  | .raw payload => some (.raw payload)

def Call.ofRecord? (r : Record) : Option Call :=
  r.request.execution.payload?.map fun payload =>
    ⟨r.id, r.request.target, r.request.value, r.request.gasLimit, payload⟩

inductive DispatchError where
  | reverted (reason : String)
  | unreachable (target : Identity)
  | paymentFailed (reason : String)
  deriving DecidableEq, Repr

def DispatchError.message : DispatchError → String
  | reverted reason => "call reverted: " ++ reason
  | unreachable target => "target unreachable: " ++ target.label
  | paymentFailed reason => "payment failed: " ++ reason

/-! ## The dispatcher -/

/-- The targets' answers, and the calls and payments received so far. -/
structure Dispatcher where
  calls : List Call
  payments : List (TxId × Payment)
  results : SortedMap Identity Bytes
  failing : SortedMap Identity String
  failsPayments : Bool
  deriving DecidableEq, Repr

/-- How a dispatcher answers from now on. -/
inductive DispatcherSetting where
  | respond (target : Identity) (result : Bytes)
  | failTarget (target : Identity) (reason : String)
  | failPayments (fails : Bool)
  deriving DecidableEq, Repr

namespace Dispatcher

def empty : Dispatcher := ⟨[], [], .empty, .empty, false⟩

def set (d : Dispatcher) : DispatcherSetting → Dispatcher
  | .respond target result => { d with results := d.results.insert target result }
  | .failTarget target reason => { d with failing := d.failing.insert target reason }
  | .failPayments fails => { d with failsPayments := fails }

/-- What a call to a target answers: failures come first, and a target without result has none. -/
def answer (d : Dispatcher) (target : Identity) : Except DispatchError Bytes :=
  match d.failing.get? target with
  | some reason => .error (.reverted reason)
  | none => .ok ((d.results.get? target).getD [])

def dispatch (d : Dispatcher) (call : Call) : Dispatcher × Except DispatchError Bytes :=
  ({ d with calls := d.calls ++ [call] }, d.answer call.target)

def pay (d : Dispatcher) (id : TxId) (payment : Payment) :
    Dispatcher × Except DispatchError Unit :=
  if d.failsPayments then
    (d, .error (.paymentFailed
      (toString payment.nativeAmount.toNat ++ " to " ++ payment.recipient.label)))
  else ({ d with payments := d.payments ++ [(id, payment)] }, .ok ())

end Dispatcher

/-! ## Execution -/

structure Outcome where
  status : Status
  result : Bytes
  error : Option DispatchError
  deriving DecidableEq, Repr

namespace Outcome

def completed (result : Bytes) : Outcome := ⟨.completed, result, none⟩

/-- A failure leaves its message as the result. -/
def failed (e : DispatchError) : Outcome := ⟨.failed, utf8 e.message, some e⟩

end Outcome

/-- Whatever takes the calls and the payments of records, working on a state. -/
structure Surroundings (ω : Type) where
  /-- Takes a call to the engine itself. -/
  engineCall : ω → Call → ω × Except DispatchError Bytes
  /-- Takes a call to another target. -/
  dispatch : ω → Call → ω × Except DispatchError Bytes
  pay : ω → TxId → Payment → ω × Except DispatchError Unit

namespace Surroundings

variable {ω : Type} (w : Surroundings ω) (engine : Identity) (s : ω) (r : Record)

def makeCall : ω × Except DispatchError Bytes :=
  match Call.ofRecord? r with
  | none => (s, .ok [])
  | some call => if call.target = engine then w.engineCall s call else w.dispatch s call

def releasePayment : ω × Except DispatchError Unit :=
  match r.payment with
  | none => (s, .ok ())
  | some payment => if payment.isEmpty then (s, .ok ()) else w.pay s r.id payment

/-- Carries out a record: its call, then its payment. -/
def carryOut : ω × Outcome :=
  match w.makeCall engine s r with
  | (s, .error e) => (s, .failed e)
  | (s, .ok result) =>
    match w.releasePayment s r with
    | (s, .error e) => (s, .failed e)
    | (s, .ok ()) => (s, .completed result)

end Surroundings

/-- A handler of the calls that target the engine, working on a state. -/
abbrev EngineHandler (σ : Type) := σ → Call → σ × Except DispatchError Bytes

/-- A handler of the calls to the engine, and a dispatcher for the rest. -/
def Surroundings.ofEngine {σ : Type} (handler : EngineHandler σ) :
    Surroundings (σ × Dispatcher) where
  engineCall s call := (((handler s.1 call).1, s.2), (handler s.1 call).2)
  dispatch s call := ((s.1, (s.2.dispatch call).1), (s.2.dispatch call).2)
  pay s id payment := ((s.1, (s.2.pay id payment).1), (s.2.pay id payment).2)

def execute {σ : Type} (engine : Identity) (handler : EngineHandler σ) (s : σ) (d : Dispatcher)
    (r : Record) : σ × Dispatcher × Outcome :=
  let ((s, d), outcome) := (Surroundings.ofEngine handler).carryOut engine (s, d) r
  (s, d, outcome)

def inspectExecutor (engine : Identity) : String :=
  "OperationExecutor \x7b engine_identity: " ++ engine.inspect ++ ", .. \x7d"

end Countersign
