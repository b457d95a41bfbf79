import Countersign.Data.Checked
import Countersign.Data.SortedMap
import Countersign.Fault

/-!
# Time-locks

The `TimeLockPolicy` gives each operation type its period, the seconds from a request to its release,
and its cancel window. No period is zero.
-/

namespace Countersign

/-- When a request may be cancelled on the delay track. -/
inductive CancelWindow where
  | anytime
  | afterRelease
  deriving DecidableEq, Repr

def CancelWindow.name : CancelWindow → String
  | anytime => "anytime"
  | afterRelease => "after_release"

def CancelWindow.all : List CancelWindow := [anytime, afterRelease]

structure TimeLockPolicy where
  defaultPeriod : UInt64
  periods : SortedMap OperationType UInt64
  cancelWindows : SortedMap OperationType CancelWindow
  deriving DecidableEq, Repr

def requireReleased (id : TxId) (releaseTime now : UInt64) : Except Fault Unit :=
  ensure (releaseTime ≤ now) (.timeLockRunning id releaseTime now)

namespace TimeLockPolicy

def create (defaultPeriod : UInt64) : Except Fault TimeLockPolicy := do
  ensure (defaultPeriod ≠ 0) (.invalidPeriod defaultPeriod)
  return ⟨defaultPeriod, .empty, .empty⟩

def periodFor (p : TimeLockPolicy) (operation : OperationType) : UInt64 :=
  (p.periods.get? operation).getD p.defaultPeriod

def releaseTime (p : TimeLockPolicy) (operation : OperationType) (now : UInt64) :
    Except Fault UInt64 :=
  match add? now (p.periodFor operation) with
  | some time => .ok time
  | none => .error .timeOverflow

/-- Sets the period of an operation type and gives the one before. -/
def setPeriod (p : TimeLockPolicy) (operation : OperationType) (period : UInt64) :
    Except Fault (TimeLockPolicy × UInt64) := do
  ensure (period ≠ 0) (.invalidPeriod period)
  return ({ p with periods := p.periods.insert operation period }, p.periodFor operation)

def cancelWindow (p : TimeLockPolicy) (operation : OperationType) : CancelWindow :=
  (p.cancelWindows.get? operation).getD .anytime

def setCancelWindow (p : TimeLockPolicy) (operation : OperationType) (window : CancelWindow) :
    TimeLockPolicy :=
  { p with cancelWindows := p.cancelWindows.insert operation window }

/-- Faults if a request may not be cancelled yet. -/
def requireCancellable (p : TimeLockPolicy) (id : TxId) (operation : OperationType)
    (releaseTime now : UInt64) : Except Fault Unit :=
  match p.cancelWindow operation with
  | .anytime => .ok ()
  | .afterRelease => requireReleased id releaseTime now

end TimeLockPolicy

end Countersign
