import Countersign.Config
import Countersign.Wire.Identifier

/-!
# Wire forms of configurations

Every field of a configuration may be missing and then has its standard value.
-/

namespace Countersign

open Wire (encode encodeOption slots? withDefault optionalAnywhere)

instance : Wire OperationOverride where
  encode o := .fields
    [("period_secs", encodeOption o.period), ("cancel_window", encodeOption o.cancelWindow)]
  decode c j := do
    let c ← c.enter?
    let [period, cancelWindow] ← slots? ["period_secs", "cancel_window"] j | none
    return {
      period := ← optionalAnywhere c period
      cancelWindow := ← optionalAnywhere c cancelWindow }

instance : Wire TimeLockConfig where
  encode t := .fields
    [("default_period_secs", encode t.defaultPeriod), ("overrides", encode t.overrides)]
  decode c j := do
    let c ← c.enter?
    let [defaultPeriod, overrides] ← slots? ["default_period_secs", "overrides"] j | none
    return {
      defaultPeriod := ← withDefault c TimeLockConfig.standard.defaultPeriod defaultPeriod
      overrides := ← withDefault c .empty overrides }

instance : Wire LoggingConfig where
  encode l := .fields [("level", encode l.level), ("json", encode l.json)]
  decode c j := do
    let c ← c.enter?
    let [level, json] ← slots? ["level", "json"] j | none
    return {
      level := ← withDefault c LoggingConfig.standard.level level
      json := ← withDefault c LoggingConfig.standard.json json }

instance : Wire EngineConfig where
  encode e := .fields
    [("chain_id", encode e.chainId), ("engine_identity", encode e.engineIdentity),
      ("owner", encodeOption e.owner), ("timelock", encode e.timelock),
      ("logging", encode e.logging)]
  decode c j := do
    let c ← c.enter?
    let [chainId, engineIdentity, owner, timelock, logging] ←
      slots? ["chain_id", "engine_identity", "owner", "timelock", "logging"] j | none
    return {
      chainId := ← withDefault c EngineConfig.standard.chainId chainId
      engineIdentity := ← withDefault c EngineConfig.standard.engineIdentity engineIdentity
      owner := ← optionalAnywhere c owner
      timelock := ← withDefault c .standard timelock
      logging := ← withDefault c .standard logging }

end Countersign
