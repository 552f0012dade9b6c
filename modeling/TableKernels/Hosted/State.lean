import TableKernels.Callback
import TableKernels.Journal
import TableKernels.Wasm.Instance

/-!
# The host of a module

A kernel module sees its host through two imported functions. `abort` takes the four integers of a
diagnostic, which the host keeps; the module then traps of its own accord. `callback` hands a number
to the bound callback. A callback that panics must not unwind through running code, so the panic is
kept and the number is returned as it came; whoever called the module turns the record into a
failure.
-/

namespace TableKernels

open Wasm

/-- What the host of a module knows. -/
structure HostState where
  callback : Option Callback
  /-- The latest diagnostic of the current call. -/
  lastAbort : Option Abort
  /-- The message of a callback that panicked during the current call. -/
  callbackPanic : Option String
  /-- The cursor of the memory stream. -/
  position : UInt64
  journal : Journal

namespace HostState

/-- A host that has seen nothing. -/
def new : HostState := ⟨none, none, none, 0, #[]⟩

/-- A record at the end of the journal. -/
def log (host : HostState) (level : Level) (text : String) : HostState :=
  { host with journal := host.journal.push ⟨level, text⟩ }

/-- Whether a callback is bound. -/
def isBound (host : HostState) : Bool := host.callback.isSome

/-- Binds a callback in place of any other. -/
def bind (host : HostState) (callback : Callback) : HostState :=
  log { host with callback := some callback } .info "host callback bound"

/-- Takes the callback out of its slot. -/
def unbind (host : HostState) : Option Callback × HostState :=
  (host.callback, { host with callback := none })

/-- Forgets the diagnostics of earlier calls. -/
def beginCall (host : HostState) : HostState :=
  { host with lastAbort := none, callbackPanic := none }

/-- Keeps a diagnostic that the module reports. -/
def reportAbort (host : HostState) (abort : Abort) : HostState :=
  { host.log .debug ("module reported " ++ abort.text) with lastAbort := some abort }

/-- The diagnostic of a callback that panicked on a number. -/
def panicAbort (value : Int64) : Abort :=
  ⟨AbortCode.hostPanic.number, EntryPoint.invokeCallback.site, 0, value.toInt32⟩

/-- Hands a number to the callback; without one, or if it panics, the number comes back. -/
def callCallback (host : HostState) (value : Int64) : Int64 × HostState :=
  match host.callback with
  | none => (value, host.log .error "`callback` import reached without a bound callback")
  | some callback =>
    let (reply, after) := callback.call value
    let called := { host with callback := some after }
    match reply with
    | .value next => (next, called)
    | .panic payload =>
      (value, { called with
        lastAbort := some (panicAbort value)
        callbackPanic := some (Run.panicMessage .invokeCallback payload) })

/-- The import by which a module reports a diagnostic. -/
def abortFunction : HostFunction HostState where
  type := ⟨[.i32, .i32, .i32, .i32], []⟩
  run := fun arguments host =>
    match arguments with
    | [.i32 code, .i32 file, .i32 line, .i32 column] =>
      (.ok [], host.reportAbort ⟨code.toInt32, file.toInt32, line.toInt32, column.toInt32⟩)
    | _ => (.ok [], host)

/-- The imported function that hands a number to the callback. -/
def callbackFunction : HostFunction HostState where
  type := ⟨[.i64], [.i64]⟩
  run := fun arguments host =>
    match arguments with
    | [.i64 value] =>
      let (next, host) := host.callCallback value.toInt64
      (.ok [.i64 next.toUInt64], host)
    | _ => (.ok [], host)

/-- What the host supplies to a module: the two functions, under their names. -/
def linker : Linker HostState := fun moduleName name =>
  if moduleName = importModule then
    if name = abortImport then some abortFunction
    else if name = callbackImport then some callbackFunction
    else none
  else none

/-- The text of a diagnostic that may be missing, with its fields named. -/
def abortText : Option Abort → String
  | none => "None"
  | some abort =>
    "Some(AbortInfo \x7b code: " ++ toString abort.code.toInt ++ ", file: " ++
      toString abort.file.toInt ++ ", line: " ++ toString abort.line.toInt ++ ", column: " ++
      toString abort.column.toInt ++ " \x7d)"

/-- The text of a host, without its callback and journal. -/
def text (host : HostState) : String :=
  "HostState \x7b callback_bound: " ++ (if host.isBound then "true" else "false") ++
    ", last_abort: " ++ abortText host.lastAbort ++ ", memory_position: " ++
    toString host.position.toNat ++ " \x7d"

end HostState

end TableKernels
