import TableKernels.Callback
import TableKernels.Dispatch
import TableKernels.Journal
import TableKernels.LinearMemory
import TableKernels.Table.Fibonacci
import TableKernels.Table.Sieve

/-!
# The reference registry

A `Registry` runs the kernels directly. It keeps the counter, the snapshot, the host's memory and
the slot for a callback, and its tables live outside that memory but are sized as if they were in
it. Every entry point leaves a record of the call and, when it fails, one of the failure; a failed
call changes neither counter nor snapshot.
-/

namespace TableKernels

/-- An instance of the kernels that runs without a module. -/
structure Registry where
  config : Config
  memory : LinearMemory
  callback : Option Callback
  counter : Int64
  snapshot : Option Int64
  journal : Journal

namespace Registry

/-- A record at the end of the journal. -/
def log (registry : Registry) (level : Level) (text : String) : Registry :=
  { registry with journal := registry.journal.push ⟨level, text⟩ }

/-- A truth value as it is logged. -/
def truthText (value : Bool) : String := if value then "true" else "false"

/-- An instance over given memory; the configuration is not checked. -/
def ofMemory (config : Config) (memory : LinearMemory) : Registry :=
  log ⟨config, memory, none, 0, none, #[]⟩ .info
    ("kernel instance created (" ++ toString memory.size ++
      " bytes of linear memory, callback bound: false)")

/-- An instance with the memory that its configuration asks for. -/
def ofConfig (config : Config) : Except ConfigFault Registry := do
  config.validate
  pure (ofMemory config (.ofPages config.initialPages.toNat))

/-- An instance of the default configuration. -/
def new : Registry :=
  ofMemory .default (.ofPages Config.default.initialPages.toNat)

/-- Whether a callback is bound. -/
def isBound (registry : Registry) : Bool := registry.callback.isSome

/-- Binds a callback in place of any other. -/
def bind (registry : Registry) (callback : Callback) : Registry :=
  log { registry with callback := some callback } .info "host callback bound"

/-- Takes the callback out of its slot. -/
def unbind (registry : Registry) : Option Callback × Registry :=
  (registry.callback, { registry with callback := none })

/-- Hands a number to the bound callback. -/
def callHost (registry : Registry) (value : Int64) : Run Int64 × Registry :=
  match registry.callback with
  | none => (.failed .unboundCallback, registry)
  | some callback =>
    let (reply, after) := callback.call value
    (reply.run, { registry with callback := some after })

/-- The text of the host's side: whether a callback is bound, and the size of memory. -/
def hostText (registry : Registry) : String :=
  "HostBridge \x7b callback_bound: " ++ truthText registry.isBound ++ ", memory_len: " ++
    toString registry.memory.size ++ " \x7d"

/-- Writes bytes into the host's memory, if they lie in it. -/
def write (offset : UInt64) (data : Bytes) (registry : Registry) :
    Except Failure Unit × Registry :=
  match registry.memory.write offset data with
  | .ok memory => (.ok (), { registry with memory })
  | .error failure => (.error failure, registry)

/-- Makes every byte of memory the same. -/
def fill (byte : UInt8) (registry : Registry) : Registry :=
  { registry with memory := registry.memory.fill byte }

/-- Records the failure of an entry point, if it failed. -/
def traced {α : Type} (entry : EntryPoint) (result : Except Failure α) (registry : Registry) :
    Except Failure α × Registry :=
  match result with
  | .ok value => (.ok value, registry)
  | .error failure => (.error failure, registry.log .warn (failure.record entry))

/-- The budget of the kernels under the configuration. -/
def budget (registry : Registry) : TableBudget := ⟨registry.config.maxPages⟩

/-- Runs a kernel on a number, unless the configuration refuses the argument. -/
def compute {α : Type} (entry : EntryPoint) (kernel : TableBudget → Int64 → Run α)
    (argument : Int64) (registry : Registry) : Except Failure α × Registry :=
  let run : Run α := do
    Run.ofExcept (registry.config.checkArgument entry argument)
    kernel registry.budget argument
  traced entry (run.barrier entry)
    (registry.log .debug (entry.name ++ "(" ++ toString argument.toInt ++ ")"))

/-- The Fibonacci number at an argument. -/
def fibonacci : Int64 → Registry → Except Failure Int64 × Registry :=
  compute .fibonacci Table.fibonacci

/-- The largest prime up to an argument. -/
def sieve : Int64 → Registry → Except Failure Int32 × Registry :=
  compute .sieve Table.sieve

/-- The failure of a snapshot of memory that is too short. -/
def shortMemory (size : Nat) : Failure :=
  .internalTrap
    ⟨some ⟨AbortCode.outOfBounds.number, EntryPoint.updateMemory.site, 0, Int32.ofNat size⟩,
      "linear memory holds " ++ toString size ++ " bytes, snapshot needs " ++
        toString snapshotBytes⟩

/--
Takes the first eight bytes of memory as the snapshot. They count from the lowest up: the host is
taken to be a little-endian machine, on which native words are words of linear memory.
-/
def updateMemory (registry : Registry) : Except Failure Unit × Registry :=
  let logged := registry.log .debug "update_memory()"
  match logged.memory.read 0 (UInt64.ofNat snapshotBytes) with
  | .ok bytes =>
    (.ok (), { logged with snapshot := some (LittleEndian.decode bytes.toList).toInt64 })
  | .error _ => traced .updateMemory (.error (shortMemory logged.memory.size)) logged

/-- Replaces the counter with what the callback makes of it. -/
def invokeCallback (registry : Registry) : Except Failure Unit × Registry :=
  let logged := registry.log .debug
    ("invoke_callback() with counter " ++ toString registry.counter.toInt)
  let (run, called) := logged.callHost logged.counter
  match run.barrier .invokeCallback with
  | .ok next => (.ok (), { called with counter := next })
  | .error failure => traced .invokeCallback (.error failure) called

instance : Kernel Registry where
  fibonacci := fibonacci
  sieve := sieve
  updateMemory := updateMemory
  invokeCallback := invokeCallback
  constant := fun registry => registry.config.globalConst
  counter := fun registry => registry.counter
  snapshot := fun registry => registry.snapshot

end Registry

end TableKernels
