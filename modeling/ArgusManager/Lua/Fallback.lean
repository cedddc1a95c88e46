/-
  ArgusManager.Lua.Fallback
  ─────────────────────────
  The decider used when the Lua VM is unusable (`src/lua/fallback.rs`).  Only
  the memory axis acts, on the level its monitor computed.
-/
import ArgusManager.Shared
import ArgusManager.Signal

namespace ArgusManager

/-- Compress in proportion to memory pressure, release when it clears. -/
def fallbackDecide : SystemSignal → List EngineCommand
  | .memoryPressure level _ _ _ =>
      match level with
      | .normal => [.restoreDefaults]
      | .warning => [.kvCompress (.fin 0.85)]
      | .critical => [.kvCompress (.fin 0.50)]
      | .emergency => [.kvCompress (.fin 0.25)]
  | .thermalAlert .. => []
  | .computeGuidance .. => []
  | .energyConstraint .. => []

end ArgusManager
