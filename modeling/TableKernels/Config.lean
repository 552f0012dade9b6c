import TableKernels.Failure
import TableKernels.Layout

/-!
# Configurations

A configuration fixes the constant and the memory limits that a kernel module is built with, and
the caps that a host puts on arguments. `Config.validate` says which configurations describe a
module, and the checks of an argument come in two halves: its domain, which every implementation
enforces, and the host's cap, which leaves values outside the domain to the first half.
-/

namespace TableKernels

/-- How a kernel module is built and what its host accepts. -/
structure Config where
  /-- The value of the exported constant. -/
  globalConst : Binary64
  /-- Pages of linear memory at the start. -/
  initialPages : UInt64
  /-- The most pages that linear memory may grow to. -/
  maxPages : UInt64
  /-- The host's cap on the argument of `fibonacci`. -/
  fibonacciCap : Option Int64
  /-- The host's cap on the argument of `sieve`. -/
  sieveCap : Option Int64
deriving DecidableEq

/-- Why a configuration describes no module. -/
inductive ConfigFault
  | constantNotFinite (constant : Binary64)
  | noInitialPages
  | maxAboveCeiling (pages : UInt64)
  | initialAboveMax (initialPages maxPages : UInt64)
  | negativeCap (field : String) (cap : Int64)
deriving DecidableEq

/-- The text of a fault of a configuration. -/
def ConfigFault.message : ConfigFault → String
  | .constantNotFinite constant =>
    "invalid config: global_const must be finite, got " ++ Decimal.plainText constant
  | .noInitialPages => "invalid config: initial_memory_pages must be at least 1"
  | .maxAboveCeiling pages =>
    "invalid config: max_memory_pages " ++ toString pages.toNat ++
      " exceeds the 32-bit ceiling of " ++ toString pageCeiling
  | .initialAboveMax initialPages maxPages =>
    "invalid config: initial_memory_pages " ++ toString initialPages.toNat ++
      " exceeds max_memory_pages " ++ toString maxPages.toNat
  | .negativeCap field cap =>
    "invalid config: " ++ field ++ " must not be negative, got " ++ toString cap.toInt

namespace Config

/-- The constant that a module has unless told otherwise: 1.6180339. -/
def defaultConstant : Binary64 := ⟨0x3ff9e37783c51bfe⟩

/-- The most pages that a module has unless told otherwise: 128 MiB. -/
def defaultMaxPages : UInt64 := 2048

/-- One page to start with, the default limits, and no caps. -/
def default : Config := ⟨defaultConstant, 1, defaultMaxPages, none, none⟩

instance : Inhabited Config := ⟨default⟩

/-- A cap that is set must not be negative. -/
def validateCap (field : String) : Option Int64 → Except ConfigFault Unit
  | some cap => if cap < 0 then .error (.negativeCap field cap) else .ok ()
  | none => .ok ()

/-- Refuses a configuration that describes no module, with the first fault found. -/
def validate (config : Config) : Except ConfigFault Unit := do
  if !config.globalConst.isFinite then throw (.constantNotFinite config.globalConst)
  if config.initialPages == 0 then throw .noInitialPages
  if pageCeiling < config.maxPages.toNat then throw (.maxAboveCeiling config.maxPages)
  if config.maxPages < config.initialPages then
    throw (.initialAboveMax config.initialPages config.maxPages)
  validateCap "max_fibonacci_n" config.fibonacciCap
  validateCap "max_sieve_limit" config.sieveCap

/-- The bytes of the largest table that the configured memory can hold. -/
def maxTableBytes (config : Config) : Nat :=
  config.maxPages.toNat * pageSize - heapStart

/-- Whether a table of so many bytes fits under the page limit. -/
def tableFits (config : Config) (bytes : Nat) : Bool :=
  pagesForTable bytes ≤ config.maxPages.toNat

end Config

/-- The greatest argument in the domain of an entry point; those without an argument have none. -/
def EntryPoint.domainMax? : EntryPoint → Option Int
  | .fibonacci => some fibonacciMax
  | .sieve => some sieveMax
  | .updateMemory | .invokeCallback => none

/-- The range check that every implementation makes before it builds a table. -/
def checkDomain (entry : EntryPoint) (value : Int64) : Except Failure Unit :=
  match entry.domainMax? with
  | none => .ok ()
  | some greatest =>
    if value.toInt < 0 then .error (.invalidArgument entry value .negative)
    else if greatest < value.toInt then .error (.invalidArgument entry value .exceedsIndexRange)
    else .ok ()

namespace Config

/-- The host's cap on the argument of an entry point. -/
def cap? (config : Config) : EntryPoint → Option Int64
  | .fibonacci => config.fibonacciCap
  | .sieve => config.sieveCap
  | .updateMemory | .invokeCallback => none

/-- Refuses a value of the domain that exceeds the host's cap. -/
def checkHostLimit (config : Config) (entry : EntryPoint) (value : Int64) :
    Except Failure Unit :=
  match config.cap? entry with
  | none => .ok ()
  | some cap =>
    if cap < value && (checkDomain entry value).isOk then
      .error (.invalidArgument entry value .exceedsHostLimit)
    else .ok ()

/-- The domain check followed by the host's cap. -/
def checkArgument (config : Config) (entry : EntryPoint) (value : Int64) :
    Except Failure Unit := do
  checkDomain entry value
  config.checkHostLimit entry value

end Config

end TableKernels
