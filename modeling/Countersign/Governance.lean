import Countersign.Dispatch
import Countersign.TimeLock

/-!
# Governance of the time-locks

Periods are changed by an operation of the engine's own, `TIMELOCK_UPDATE`: its records call the
engine with an encoded `PeriodUpdate`, and `handleCall` carries that call out on the policy.
-/

namespace Countersign.Governance

def operationName : String := "TIMELOCK_UPDATE"

def operation : OperationType := .ofName operationName

/-- The function through which a change is requested on the delay track. -/
def requestSignature : String := "updateTimeLockRequest(bytes32,uint64)"

def requestHandler : Selector := .ofSignature requestSignature

/-- The function through which a change is made by meta-transactions. -/
def metaSignature : String := "updateTimeLockWithMetaTx(bytes32,uint64)"

/-- The function of the engine that sets a period. -/
def setPeriod : Selector := .ofSignature "setTimeLockPeriod(bytes32,uint64)"

/-! ## Updates -/

structure PeriodUpdate where
  operation : OperationType
  period : UInt64
  deriving DecidableEq, Repr

namespace PeriodUpdate

/-- The operation type, then the period with its least significant byte first. -/
def encode (u : PeriodUpdate) : Bytes := u.operation.bytes.toList ++ leBytes 8 u.period.toNat

/-- Reads exactly forty bytes. -/
def decode? (bs : Bytes) : Option PeriodUpdate :=
  if h : bs.length = 40 then
    some ⟨⟨⟨bs.take 32, by simp [h]⟩⟩, UInt64.ofNat (ofLe (bs.drop 32))⟩
  else none

theorem decode?_encode (u : PeriodUpdate) : decode? u.encode = some u := by
  have hl : u.operation.bytes.toList.length = 32 := u.operation.bytes.length_toList
  have hp : ofLe (leBytes 8 u.period.toNat) = u.period.toNat := ofLe_leBytes u.period.toNat_lt
  have h : u.encode.length = 40 := by simp [encode, hl]
  have ht : u.encode.take 32 = u.operation.bytes.toList := by
    rw [encode, List.take_append_of_le_length (by omega), List.take_of_length_le (by omega)]
  have hd : u.encode.drop 32 = leBytes 8 u.period.toNat := by
    rw [encode, List.drop_append_of_le_length (by omega), List.drop_of_length_le (by omega)]
    rfl
  simp only [decode?, h, ↓reduceDIte, ht, hd, hp, UInt64.ofNat_toNat]

theorem encode_of_decode? {bs : Bytes} {u : PeriodUpdate} (h : decode? bs = some u) :
    u.encode = bs := by
  unfold decode? at h
  split at h
  · next hl =>
    cases h
    have hd : (bs.drop 32).length = 8 := by simp [hl]
    have hlt : ofLe (bs.drop 32) < 2 ^ 64 := by
      have := ofLe_lt (bs.drop 32)
      rw [hd] at this
      exact this
    have hn : (UInt64.ofNat (ofLe (bs.drop 32))).toNat = ofLe (bs.drop 32) :=
      UInt64.toNat_ofNat_of_lt' hlt
    simp only [encode, hn]
    rw [← hd, leBytes_ofLe, List.take_append_drop]
  · cases h

end PeriodUpdate

def updateRequest (engine requester : Identity) (u : PeriodUpdate) : Request where
  requester := requester
  target := engine
  value := 0
  gasLimit := 0
  operation := operation
  execution := .standard setPeriod u.encode

/-! ## Carrying out -/

/-- Sets the period that a call names and answers with the one before, least significant byte
first. -/
def handleCall : EngineHandler TimeLockPolicy := fun policy call =>
  match call.payload with
  | .raw _ => (policy, .error (.reverted "engine accepts standard calls only"))
  | .standard selector params =>
    if selector ≠ setPeriod then
      (policy, .error (.reverted ("unknown engine call " ++ selector.label)))
    else
      match PeriodUpdate.decode? params with
      | none => (policy, .error (.reverted "malformed time-lock update"))
      | some u =>
        match policy.setPeriod u.operation u.period with
        | .error fault => (policy, .error (.reverted fault.message))
        | .ok (policy, previous) => (policy, .ok (leBytes 8 previous.toNat))

end Countersign.Governance
