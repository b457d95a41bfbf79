import Countersign.TimeLock

/-!
# Configuration

An `EngineConfig` as it is written down: identities are texts, and anything may be wrong with it.
`EngineConfig.validate` says whether an engine can be built from it.
-/

namespace Countersign

structure OperationOverride where
  period : Option UInt64
  cancelWindow : Option CancelWindow
  deriving DecidableEq, Repr

/-- The time-lock part of a configuration; overrides stand under the names of operation types. -/
structure TimeLockConfig where
  defaultPeriod : UInt64
  overrides : SortedMap String OperationOverride
  deriving DecidableEq, Repr

structure LoggingConfig where
  level : String
  json : Bool
  deriving DecidableEq, Repr

structure EngineConfig where
  chainId : UInt64
  engineIdentity : String
  owner : Option String
  timelock : TimeLockConfig
  logging : LoggingConfig
  deriving DecidableEq, Repr

/-! ## Defaults -/

def OperationOverride.none : OperationOverride := ⟨Option.none, Option.none⟩

def TimeLockConfig.standard : TimeLockConfig := ⟨24 * 60 * 60, .empty⟩

def LoggingConfig.standard : LoggingConfig := ⟨"info", false⟩

namespace EngineConfig

/-- The identity of an engine that is configured without one. -/
def standardIdentity : Identity := ⟨.replicate 32 0xb5⟩

def standard : EngineConfig := ⟨1, standardIdentity.hex, none, .standard, .standard⟩

def development : EngineConfig :=
  { standard with timelock := ⟨60, .empty⟩, logging := ⟨"debug", false⟩ }

/-! ## Validation -/

def identity (c : EngineConfig) : Except ConfigFlaw Identity :=
  match Identity.ofHex c.engineIdentity with
  | .error e => .error (.unreadable .engine e)
  | .ok i => if i.isZero then .error .zeroEngine else .ok i

def ownerIdentity (c : EngineConfig) : Except ConfigFlaw (Option Identity) :=
  match c.owner with
  | none => .ok none
  | some text =>
    match Identity.ofHex text with
    | .error e => .error (.unreadable .owner e)
    | .ok i => .ok (some i)

/-- The name of the first override with a period of zero. -/
def zeroOverride? (c : EngineConfig) : Option String :=
  (c.timelock.overrides.entries.find? fun e => e.2.period == some 0).map Prod.fst

/-- Checks the identities, then the periods. -/
def validate (c : EngineConfig) : Except ConfigFlaw Unit := do
  let _ ← c.identity
  let _ ← c.ownerIdentity
  if c.timelock.defaultPeriod = 0 then throw (.zeroPeriod "default")
  match c.zeroOverride? with
  | some name => throw (.zeroPeriod name)
  | none => return ()

end EngineConfig

end Countersign
