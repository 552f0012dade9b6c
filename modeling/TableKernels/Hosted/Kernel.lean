import TableKernels.Dispatch
import TableKernels.Hosted.Bounds
import TableKernels.Hosted.Linked

/-!
# Hosted kernels

A `HostedKernel` runs the kernels as a module, compiled or made by hand. The host checks its own
caps before it enters the module and leaves the domain of an argument to the module, whose
diagnostic it turns back into a failure with the whole argument. A callback that panicked during
`invoke_callback` is reported once the module is done, and the snapshot counts as unset until
`update_memory` first succeeds.
-/

namespace TableKernels

open Wasm Compiled

/-- Why no module is hosted. -/
inductive HostFault
  | invalidConfig (fault : ConfigFault)
  | compile (fault : CompileFault)
  | inspection (fault : InspectFault)
  /-- The module is not valid, cannot be linked, or does not start. -/
  | instantiation
  | missingExport (name : String)
deriving DecidableEq

/-- The text of a fault, where it has one of its own. -/
def HostFault.message? : HostFault → Option String
  | .invalidConfig fault => some (invalidConfigMessage fault)
  | .inspection fault => fault.message?
  | .missingExport name => some ("missing export `" ++ name ++ "`")
  | .compile _ | .instantiation => none

/-- Where the exports of a module are. -/
structure Surface where
  memory : UInt32
  function : EntryPoint → UInt32
  constant : UInt32
  counter : UInt32
  snapshot : UInt32

namespace Surface

/-- The index of the function behind an entry point. -/
def requireFunction (live : LinkedModule) (entry : EntryPoint) : Except HostFault UInt32 :=
  match LinkedModule.entry? live entry with
  | some index => .ok index
  | none => .error (.missingExport entry.name)

/-- The index of the exported global with a name. -/
def requireGlobal (live : LinkedModule) (name : String) : Except HostFault UInt32 :=
  match Instance.global? live name with
  | some index => .ok index
  | none => .error (.missingExport name)

/-- The exports that a host needs: memory, the entry points and the globals, looked up in order. -/
def ofLinked (live : LinkedModule) : Except HostFault Surface := do
  let some memory := Instance.memory? live memoryName | throw (.missingExport memoryName)
  let fibonacci ← requireFunction live .fibonacci
  let sieve ← requireFunction live .sieve
  let updateMemory ← requireFunction live .updateMemory
  let invokeCallback ← requireFunction live .invokeCallback
  let constant ← requireGlobal live constantName
  let counter ← requireGlobal live counterName
  let snapshot ← requireGlobal live snapshotName
  let function
    | .fibonacci => fibonacci
    | .sieve => sieve
    | .updateMemory => updateMemory
    | .invokeCallback => invokeCallback
  pure ⟨memory, function, constant, counter, snapshot⟩

end Surface

/-- A module that runs under a host. -/
structure HostedKernel where
  config : Config
  report : ModuleReport
  limits : PageBounds
  live : LinkedModule
  surface : Surface
  /-- Whether `update_memory` succeeded before. -/
  snapshotTaken : Bool

namespace HostedKernel

/-- The host's side of the kernel. -/
def host (kernel : HostedKernel) : HostState := kernel.live.store.host

/-- The kernel with another state of the host. -/
def withHost (kernel : HostedKernel) (host : HostState) : HostedKernel :=
  { kernel with live := Instance.withHost kernel.live host }

/-- A record at the end of the journal. -/
def log (kernel : HostedKernel) (level : Level) (text : String) : HostedKernel :=
  kernel.withHost (kernel.host.log level text)

/-- The text of a number of pages that may be missing. -/
def limitText : Option UInt64 → String
  | some pages => "Some(" ++ toString pages.toNat ++ ")"
  | none => "None"

/-- The record of a module that was instantiated. -/
def instantiatedText (report : ModuleReport) (limits : PageBounds) : String :=
  "kernel module instantiated (" ++ toString report.size.toNat ++ " bytes, sha256 " ++
    report.sha256 ++ ", memory " ++ toString limits.minPages.toNat ++ ".." ++
    limitText limits.maxPages ++ " pages)"

/-- Hosts a module; the configuration supplies the caps, and the module its own limits. -/
def ofModule (bytes : Bytes) (config : Config) : Except HostFault HostedKernel := do
  config.validate.mapError .invalidConfig
  let report ← (inspect bytes).mapError .inspection
  let some bounds := report.memory | throw (.missingExport memoryName)
  let some live := LinkedModule.ofModule? bytes | throw .instantiation
  let surface ← Surface.ofLinked live
  let kernel : HostedKernel := ⟨config, report, bounds.pages, live, surface, false⟩
  pure (kernel.log .info (instantiatedText report bounds.pages))

/-- Hosts the module that is compiled for a configuration. -/
def ofConfig (config : Config) : Except HostFault HostedKernel := do
  config.validate.mapError .invalidConfig
  let bytes ← (compile config).mapError .compile
  ofModule bytes config

/-- Whether a callback is bound. -/
def isBound (kernel : HostedKernel) : Bool := kernel.host.isBound

/-- The diagnostic of the latest call that entered the module. -/
def lastAbort (kernel : HostedKernel) : Option Abort := kernel.host.lastAbort

/-- Binds a callback in place of any other. -/
def bind (kernel : HostedKernel) (callback : Callback) : HostedKernel :=
  kernel.withHost (kernel.host.bind callback)

/-- Takes the callback out of its slot. -/
def unbind (kernel : HostedKernel) : Option Callback × HostedKernel :=
  let (callback, host) := kernel.host.unbind
  (callback, kernel.withHost host)

/-- The word that a global holds. -/
def globalWord? (kernel : HostedKernel) (index : UInt32) : Option Word :=
  LinkedModule.globalWord? kernel.live index

/-- The value of a global read as a signed 64-bit integer; zero if it has another type. -/
def globalInteger (kernel : HostedKernel) (index : UInt32) : Int64 :=
  match kernel.globalWord? index with
  | some (.i64 value) => value.toInt64
  | _ => 0

/-- The exported constant; not a number if the global has another type. -/
def constant (kernel : HostedKernel) : Binary64 :=
  match kernel.globalWord? kernel.surface.constant with
  | some (.f64 bits) => ⟨bits⟩
  | _ => ⟨0x7ff8000000000000⟩

/-- The exported counter. -/
def counter (kernel : HostedKernel) : Int64 :=
  kernel.globalInteger kernel.surface.counter

/-- The exported snapshot, once one was taken. -/
def snapshot (kernel : HostedKernel) : Option Int64 :=
  if kernel.snapshotTaken then some (kernel.globalInteger kernel.surface.snapshot) else none

/-- The failure of a call that trapped: a refused argument, if that is what the module reported. -/
def trapFailure (entry : EntryPoint) (argument : Int64) (reported : Option Abort)
    (message : String) : Failure :=
  match reported with
  | some abort =>
    if abort.code = AbortCode.invalidArgument.number then
      match ArgumentCheck.ofLine? abort.line with
      | some check => .invalidArgument entry argument check
      | none => .internalTrap ⟨some abort, message⟩
    else .internalTrap ⟨some abort, message⟩
  | none => .internalTrap ⟨none, message⟩

/-- A failed call with its record. -/
def refuse {α : Type} (entry : EntryPoint) (failure : Failure) (kernel : HostedKernel) :
    Except Failure α × HostedKernel :=
  (.error failure, kernel.log .warn (failure.record entry))

/-- Enters the module; `argument` is what a refusal names. -/
def enter (entry : EntryPoint) (argument : Int64) (arguments : List Word)
    (kernel : HostedKernel) : Except Failure (List Word) × HostedKernel :=
  let begun := kernel.withHost kernel.host.beginCall
  let live := begun.live
  match live.program.invoke (begun.surface.function entry) arguments live.store with
  | .done results store => (.ok results, { begun with live := { live with store } })
  | .trap trap store =>
    refuse entry (trapFailure entry argument store.host.lastAbort trap.message)
      { begun with live := { live with store } }
  | .unfinished =>
    refuse entry (.internalTrap ⟨none, "execution did not finish"⟩) begun

/-- The result of `fibonacci` among the words that a call leaves. -/
def resultInt64 : List Word → Int64
  | .i64 value :: _ => value.toInt64
  | _ => 0

/-- The result of `sieve` among the words that a call leaves. -/
def resultInt32 : List Word → Int32
  | .i32 value :: _ => value.toInt32
  | _ => 0

/-- Runs an entry point on a number, unless the host's cap or the module refuses the argument. -/
def compute {α : Type} (entry : EntryPoint) (read : List Word → α) (argument : Int64)
    (kernel : HostedKernel) : Except Failure α × HostedKernel :=
  let logged := kernel.log .debug (entry.name ++ "(" ++ toString argument.toInt ++ ")")
  -- An argument that the host refuses does not enter the module.
  match logged.config.checkHostLimit entry argument with
  | .error failure => (.error failure, logged)
  | .ok () =>
    let (results, after) := logged.enter entry argument [.i64 argument.toUInt64]
    (results.map read, after)

/-- The Fibonacci number at an argument. -/
def fibonacci : Int64 → HostedKernel → Except Failure Int64 × HostedKernel :=
  compute .fibonacci resultInt64

/-- The largest prime up to an argument. -/
def sieve : Int64 → HostedKernel → Except Failure Int32 × HostedKernel :=
  compute .sieve resultInt32

/-- Takes the first eight bytes of memory as the snapshot. -/
def updateMemory (kernel : HostedKernel) : Except Failure Unit × HostedKernel :=
  match (kernel.log .debug "update_memory()").enter .updateMemory 0 [] with
  | (.ok _, after) => (.ok (), { after with snapshotTaken := true })
  | (.error failure, after) => (.error failure, after)

/-- Reports a callback that panicked during the call just made, if it did. -/
def settlePanic (kernel : HostedKernel) : Except Failure Unit × HostedKernel :=
  match kernel.host.callbackPanic with
  | none => (.ok (), kernel)
  | some message =>
    refuse .invokeCallback (.internalTrap ⟨kernel.lastAbort, message⟩)
      (kernel.withHost { kernel.host with callbackPanic := none })

/-- Replaces the counter with what the callback makes of it; without one nothing is entered. -/
def invokeCallback (kernel : HostedKernel) : Except Failure Unit × HostedKernel :=
  let logged := kernel.log .debug
    ("invoke_callback() with counter " ++ toString kernel.counter.toInt)
  if logged.isBound then
    match logged.enter .invokeCallback kernel.counter [] with
    -- The module has returned, yet its callback may have panicked meanwhile.
    | (.ok _, after) => after.settlePanic
    | (.error failure, after) => (.error failure, after)
  else refuse .invokeCallback .unboundCallback logged

instance : Kernel HostedKernel where
  fibonacci := fibonacci
  sieve := sieve
  updateMemory := updateMemory
  invokeCallback := invokeCallback
  constant := constant
  counter := counter
  snapshot := snapshot

end HostedKernel

end TableKernels
