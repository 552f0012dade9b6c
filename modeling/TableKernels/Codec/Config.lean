import TableKernels.Config
import TableKernels.Json.Record

/-!
# Configurations in JSON

A configuration is an object or a list of its five members; whatever is left out has its default,
and a member of any other name is refused. `Config.ofJson` also refuses a configuration that does
not describe a module.
-/

namespace TableKernels.Config

open Json

/-- Configurations in JSON; a member that is left out has its default, and no others are known. -/
def codec : Codec Config :=
  (Codec.record "KernelConfig"
    (.field "global_const" .float (.defaulted Config.default.globalConst) <|
      .field "initial_memory_pages" (.uint64 "u64") (.defaulted Config.default.initialPages) <|
      .field "max_memory_pages" (.uint64 "u64") (.defaulted Config.default.maxPages) <|
      .field "max_fibonacci_n" (.optional .int64) (.defaulted none) <|
      .field "max_sieve_limit" (.optional .int64) (.defaulted none) .done) true).map
    (fun (globalConst, initialPages, maxPages, fibonacciCap, sieveCap, _) =>
      ⟨globalConst, initialPages, maxPages, fibonacciCap, sieveCap⟩)
    (fun config =>
      (config.globalConst, config.initialPages, config.maxPages, config.fibonacciCap,
        config.sieveCap, ()))

/-- Why a text is no configuration. -/
inductive TextFault
  | json (fault : Fault)
  | invalid (fault : ConfigFault)
deriving DecidableEq

/-- The valid configuration that a text describes. -/
def ofJson (text : String) : Except TextFault Config := do
  let config ← (codec.parse text).mapError .json
  config.validate.mapError .invalid
  pure config

/-- The text of a configuration, one member per line. -/
def toJson (config : Config) : String := (codec.write config).prettyText

end TableKernels.Config
