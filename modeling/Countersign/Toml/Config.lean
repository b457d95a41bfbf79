import Countersign.Config
import Countersign.Toml.Reader

/-!
# Configurations in TOML

A structure is read from a table, where keys that nobody asks for are skipped, or from an array with its
fields in order; what is missing has its standard value. `EngineConfig.ofToml` also validates.
-/

namespace Countersign

namespace Toml

/-- The values of the fields with the given names. A date-time is a table without any of them. -/
def fieldValues? (names : List String) : Toml → Option (List (Option Toml))
  | table _ es => some (names.map fun k => Entries.find? es k)
  | array xs => some ((List.range names.length).map fun i => xs[i]?)
  | tables elements =>
    some ((List.range names.length).map fun i => elements[i]?.map (table .header))
  | dateTime => some (names.map fun _ => none)
  | _ => none

/-- A field with a value of its own when it is missing. -/
def field? {α : Type} (read : Toml → Option α) (missing : α) : Option Toml → Option α
  | none => some missing
  | some v => read v

/-! ## Values -/

def asWord? : Toml → Option UInt64
  | integer n => if 0 ≤ n ∧ n.toNat < UInt64.size then some (UInt64.ofNat n.toNat) else none
  | _ => none

def asText? : Toml → Option String
  | text s => some s
  | _ => none

def asBool? : Toml → Option Bool
  | boolean b => some b
  | _ => none

def isEmpty : Toml → Bool
  | table _ es => es.isEmpty
  | array xs => xs.isEmpty
  | tables elements => elements.isEmpty
  | _ => false

/-- The name of a constant: a text, or the only key of a table, with nothing in it. -/
def asName? : Toml → Option String
  | text s => some s
  | table _ [(k, v)] => if v.isEmpty then some k else none
  | _ => none

def asCancelWindow? (v : Toml) : Option CancelWindow := do
  let name ← v.asName?
  CancelWindow.all.find? fun w => w.name == name

/-! ## Structures -/

def asOverride? (v : Toml) : Option OperationOverride := do
  let [period, cancelWindow] ← fieldValues? ["period_secs", "cancel_window"] v | none
  return {
    period := ← field? (fun v => v.asWord?.map some) none period
    cancelWindow := ← field? (fun v => v.asCancelWindow?.map some) none cancelWindow }

/-- Overrides stand in a table under the names of operation types. -/
def asOverrides? : Toml → Option (SortedMap String OperationOverride)
  | table _ es => do
    let entries ← es.mapM fun e => do return (e.1, ← e.2.asOverride?)
    return .ofList entries
  | _ => none

def asTimeLock? (v : Toml) : Option TimeLockConfig := do
  let [defaultPeriod, overrides] ← fieldValues? ["default_period_secs", "overrides"] v | none
  return {
    defaultPeriod := ← field? asWord? TimeLockConfig.standard.defaultPeriod defaultPeriod
    overrides := ← field? asOverrides? .empty overrides }

def asLogging? (v : Toml) : Option LoggingConfig := do
  let [level, json] ← fieldValues? ["level", "json"] v | none
  return {
    level := ← field? asText? LoggingConfig.standard.level level
    json := ← field? asBool? LoggingConfig.standard.json json }

def asConfig? (v : Toml) : Option EngineConfig := do
  let [chainId, engineIdentity, owner, timelock, logging] ←
    fieldValues? ["chain_id", "engine_identity", "owner", "timelock", "logging"] v | none
  return {
    chainId := ← field? asWord? EngineConfig.standard.chainId chainId
    engineIdentity := ← field? asText? EngineConfig.standard.engineIdentity engineIdentity
    owner := ← field? (fun v => v.asText?.map some) none owner
    timelock := ← field? asTimeLock? .standard timelock
    logging := ← field? asLogging? .standard logging }

end Toml

/-! ## Loading -/

inductive ConfigError where
  | unreadable
  | malformed
  | flawed (flaw : ConfigFlaw)
  deriving DecidableEq, Repr

namespace EngineConfig

/-- Reads a configuration and validates it. -/
def ofToml (s : String) : Except ConfigError EngineConfig := do
  let some entries := Toml.parse? s | throw .malformed
  let some c := (Toml.table .header entries).asConfig? | throw .malformed
  c.validate.mapError .flawed
  return c

def load (files : String → Option String) (path : String) : Except ConfigError EngineConfig :=
  match files path with
  | none => .error .unreadable
  | some s => ofToml s

end EngineConfig

end Countersign
