import TableKernels.Hosted.Kernel
import TableKernels.Proofs.Compiled.Calls

/-!
# Entry points of a hosted module

What each entry point does to a kernel that runs a compiled module. `fibonacci` and `sieve` follow
the verdict on their argument, with the host's cap in front of it, and touch nothing but memory;
`update_memory` and `invoke_callback` touch nothing but a global and the callback.
-/

namespace TableKernels

open Wasm Compiled

variable {α : Type}

/-! ## Verdicts and hosts -/

namespace Verdict

/-- What a call that was given a verdict does to memory. -/
def Leaves (before after : Memory) : Verdict α → Prop
  | tabled bytes _ => Framed bytes before after ∧ pagesForTable bytes ≤ before.maxPages
  | refused _ | starved _ | fixed _ => after = before

end Verdict

theorem ArgumentCheck.ofLine?_line (check : ArgumentCheck) :
    ArgumentCheck.ofLine? check.line = some check := by
  cases check <;> rfl

/-- A refused argument is told from the diagnostic of the module. -/
theorem HostedKernel.trapFailure_refused (entry : EntryPoint) (check : ArgumentCheck)
    (argument : Int64) (message : String) :
    trapFailure entry argument (some (argumentAbort entry check argument.toUInt64)) message =
      .invalidArgument entry argument check := by
  simp only [trapFailure, argumentAbort, ArgumentCheck.ofLine?_line, if_true]

theorem HostedKernel.trapFailure_starved (entry : EntryPoint) (bytes : ℕ) (argument : Int64)
    (message : String) :
    (trapFailure entry argument (some (tableAbort entry.site bytes)) message).erased =
      TableBudget.outOfMemory entry bytes "" := by
  have other : ¬ AbortCode.outOfMemory.number = AbortCode.invalidArgument.number := by decide
  have column : (UInt64.ofNat bytes).toUInt32.toInt32 = Int32.ofNat bytes := by simp
  simp only [trapFailure, tableAbort, other, if_false, Failure.erased, TableBudget.outOfMemory,
    column]

/-! ## Kernels that run a compiled module -/

/-- Where a compiled module exports what a host needs. -/
def Compiled.surface : Surface :=
  ⟨0, entryIndex, constantIndex, counterIndex, snapshotIndex⟩

namespace HostedKernel

variable {config : Config} {frames : Frames} {kernel after : HostedKernel} {entry : EntryPoint}

/-- The memory of the module. -/
abbrev memory (kernel : HostedKernel) : Memory := kernel.live.store.memory

/-- The globals of the module. -/
abbrev globals (kernel : HostedKernel) : Array Word := kernel.live.store.globals

/-- The exported snapshot, whether one was taken or not. -/
def snapshotWord (kernel : HostedKernel) : Int64 := kernel.globalInteger kernel.surface.snapshot

/-- The kernel runs the module that is compiled for a configuration. -/
structure Runs (config : Config) (frames : Frames) (kernel : HostedKernel) : Prop where
  program : kernel.live.program = frames.program
  surface : kernel.surface = Compiled.surface
  globals : kernel.globals = globalWords config.globalConst kernel.counter kernel.snapshotWord
  declared : Declared kernel.memory
  maxPages : kernel.memory.maxPages = config.maxPages.toNat

/-- The kernel still runs the same module under the same configuration. -/
structure SameModule (before after : HostedKernel) : Prop where
  config : after.config = before.config
  surface : after.surface = before.surface
  program : after.live.program = before.live.program

/-- Nothing has changed but memory, diagnostics, the cursor and the journal. -/
structure Kept (before after : HostedKernel) : Prop extends SameModule before after where
  globals : after.globals = before.globals
  snapshotTaken : after.snapshotTaken = before.snapshotTaken
  callback : after.host.callback = before.host.callback

namespace Kept

variable {before : HostedKernel}

theorem trans {middle : HostedKernel} (first : Kept before middle) (second : Kept middle after) :
    Kept before after :=
  ⟨⟨second.config.trans first.config, second.surface.trans first.surface,
      second.program.trans first.program⟩,
    second.globals.trans first.globals, second.snapshotTaken.trans first.snapshotTaken,
    second.callback.trans first.callback⟩

theorem globalInteger (kept : Kept before after) (index : UInt32) :
    after.globalInteger index = before.globalInteger index := by
  simp only [HostedKernel.globalInteger, globalWord?, LinkedModule.globalWord?, kept.globals]

theorem counter (kept : Kept before after) : after.counter = before.counter := by
  rw [HostedKernel.counter, kept.surface, kept.globalInteger, HostedKernel.counter]

theorem snapshotWord (kept : Kept before after) : after.snapshotWord = before.snapshotWord := by
  rw [HostedKernel.snapshotWord, kept.surface, kept.globalInteger, HostedKernel.snapshotWord]

theorem snapshot (kept : Kept before after) : after.snapshot = before.snapshot := by
  simp only [HostedKernel.snapshot, kept.snapshotTaken, kept.surface, kept.globalInteger]

theorem runs (kept : Kept before after) (runs : before.Runs config frames)
    (declared : Declared after.memory) (maxPages : after.memory.maxPages = before.memory.maxPages) :
    after.Runs config frames := by
  refine ⟨kept.program.trans runs.program, kept.surface.trans runs.surface, ?_, declared,
    maxPages.trans runs.maxPages⟩
  rw [kept.globals, kept.counter, kept.snapshotWord, runs.globals]

end Kept

theorem kept_withHost {host : HostState} (same : host.callback = kernel.host.callback) :
    Kept kernel (kernel.withHost host) :=
  ⟨⟨rfl, rfl, rfl⟩, rfl, rfl, same⟩

theorem kept_log (kernel : HostedKernel) (level : Level) (text : String) :
    Kept kernel (kernel.log level text) :=
  kept_withHost rfl

/-- A snapshot stays if it counts as it did and its global is the same. -/
theorem snapshot_eq (taken : after.snapshotTaken = kernel.snapshotTaken)
    (word : after.snapshotWord = kernel.snapshotWord) : after.snapshot = kernel.snapshot := by
  rw [HostedKernel.snapshot, taken, HostedKernel.snapshot]
  exact congrArg (fun word => if kernel.snapshotTaken = true then some word else none) word

theorem SameModule.runs {counter snapshot : Int64} (same : SameModule kernel after)
    (runs : kernel.Runs config frames) (memory : after.memory = kernel.memory)
    (globals : after.globals = globalWords config.globalConst counter snapshot) :
    after.Runs config frames ∧ after.counter = counter ∧ after.snapshotWord = snapshot := by
  have surface : after.surface = Compiled.surface := same.surface.trans runs.surface
  have counter_eq : after.counter = counter := by
    simp only [HostedKernel.counter, globalInteger, globalWord?, LinkedModule.globalWord?, surface,
      globals]
    rfl
  have snapshot_eq : after.snapshotWord = snapshot := by
    simp only [HostedKernel.snapshotWord, globalInteger, globalWord?, LinkedModule.globalWord?,
      surface, globals]
    rfl
  refine ⟨⟨same.program.trans runs.program, surface, ?_, ?_, ?_⟩, counter_eq, snapshot_eq⟩
  · rw [globals, counter_eq, snapshot_eq]
  · rw [memory]
    exact runs.declared
  · rw [memory]
    exact runs.maxPages

theorem Runs.constant (runs : kernel.Runs config frames) :
    kernel.constant = config.globalConst := by
  simp only [HostedKernel.constant, globalWord?, LinkedModule.globalWord?, runs.surface,
    runs.globals]
  rfl

/-! ## Numbers -/

/-- A call of a kernel obeys a verdict. -/
structure Obeys (entry : EntryPoint) (argument : Int64) (verdict : Verdict α)
    (kernel : HostedKernel) (call : Except Failure α × HostedKernel) : Prop where
  result : erased call.1 = verdict.result entry argument
  kept : Kept kernel call.2
  memory : verdict.Leaves kernel.memory call.2.memory

theorem enter_eq_match (kernel : HostedKernel) (entry : EntryPoint) (argument : Int64)
    (arguments : List Word) : kernel.enter entry argument arguments =
      match kernel.live.program.invoke (kernel.surface.function entry) arguments
        (kernel.withHost kernel.host.beginCall).live.store with
      | .done results store => (.ok results, { kernel with live := { kernel.live with store } })
      | .trap trap store =>
        refuse entry (trapFailure entry argument store.host.lastAbort trap.message)
          { kernel with live := { kernel.live with store } }
      | .unfinished =>
        refuse entry (.internalTrap ⟨none, "execution did not finish"⟩)
          (kernel.withHost kernel.host.beginCall) :=
  rfl

theorem enter_eq_done (kernel : HostedKernel) (argument : Int64) {arguments results : List Word}
    {store : Store HostState}
    (invoked : kernel.live.program.invoke (kernel.surface.function entry) arguments
      (kernel.withHost kernel.host.beginCall).live.store = .done results store) :
    kernel.enter entry argument arguments =
      (.ok results, { kernel with live := { kernel.live with store } }) := by
  rw [enter_eq_match, invoked]

/-- Entering the module obeys the verdict by which its function settles. -/
theorem enter_obeys (kernel : HostedKernel) {argument : Int64} {arguments : List Word}
    {word : α → Word} (read : List Word → α) {verdict : Verdict α}
    (reads : ∀ answer, read [word answer] = answer)
    (settles : Settles entry argument word (kernel.withHost kernel.host.beginCall).live.store verdict
      (kernel.live.program.invoke (kernel.surface.function entry) arguments
        (kernel.withHost kernel.host.beginCall).live.store)) :
    Obeys entry argument verdict kernel
      ((kernel.enter entry argument arguments).map (·.map read) id) := by
  rw [enter_eq_match]
  generalize kernel.live.program.invoke (kernel.surface.function entry) arguments
    (kernel.withHost kernel.host.beginCall).live.store = result at settles
  cases settles with
  | refused check =>
    refine ⟨congrArg (fun failure : Failure => Except.error failure.erased)
      (trapFailure_refused entry check argument _), ?_, rfl⟩
    exact ⟨⟨rfl, rfl, rfl⟩, rfl, rfl, rfl⟩
  | starved bytes =>
    exact ⟨congrArg Except.error (trapFailure_starved entry bytes argument _),
      ⟨⟨rfl, rfl, rfl⟩, rfl, rfl, rfl⟩, rfl⟩
  | fixed answer =>
    exact ⟨congrArg Except.ok (reads answer), ⟨⟨rfl, rfl, rfl⟩, rfl, rfl, rfl⟩, rfl⟩
  | tabled bytes answer memory framed fits =>
    exact ⟨congrArg Except.ok (reads answer), ⟨⟨rfl, rfl, rfl⟩, rfl, rfl, rfl⟩, framed, fits⟩

theorem obeys_capped {argument : Int64} {verdict : Verdict α}
    {call : Except Failure α × HostedKernel} (kept : Kept kernel after)
    (memory : after.memory = kernel.memory)
    (obeys : Obeys entry argument verdict after call) :
    Obeys entry argument (verdict.capped after.config entry argument) kernel
      (match after.config.checkHostLimit entry argument with
        | .error failure => (.error failure, after)
        | .ok () => call) := by
  rw [Verdict.capped]
  cases limit : after.config.checkHostLimit entry argument with
  | error failure =>
    rw [Config.checkHostLimit_error limit]
    exact ⟨rfl, kept, memory⟩
  | ok passed =>
    refine ⟨obeys.result, kept.trans obeys.kept, ?_⟩
    rw [← memory]
    exact obeys.memory

/-- The function behind a numeric entry point settles by its verdict, whatever the host knows. -/
theorem invoke_settles (number : NumericFunction α) (runs : kernel.Runs config frames)
    (small : frames.AreSmall) (host : HostState) (argument : Int64) :
    Settles number.entry argument (fun answer => (number.scalar answer).word)
      { kernel.live.store with host } (number.verdict config.maxPages.toNat argument)
      (kernel.live.program.invoke (kernel.surface.function number.entry)
        [.i64 argument.toUInt64] { kernel.live.store with host }) := by
  have settles := number.settles { kernel.live.store with host } small runs.declared argument
  rw [← runs.program, runs.maxPages] at settles
  rw [runs.surface]
  exact settles

/-- A numeric entry point obeys its verdict, with the host's cap in front of it. -/
theorem compute_obeys (number : NumericFunction α) (runs : kernel.Runs config frames)
    (small : frames.AreSmall) (argument : Int64) :
    Obeys number.entry argument ((number.verdict config.maxPages.toNat argument).capped
      kernel.config number.entry argument) kernel
      (kernel.compute number.entry number.read argument) :=
  obeys_capped (kept_log kernel _ _) rfl
    (enter_obeys (kernel.log .debug _) number.read number.reads
      (invoke_settles number runs small _ argument))

/-! ## Globals -/

/-- `update_memory` succeeds, and its function sees a host that forgot all diagnostics. -/
theorem updateMemory_eq (runs : kernel.Runs config frames) (small : frames.AreSmall) :
    ∃ host : HostState, host.callback = kernel.host.callback ∧ host.lastAbort = none ∧
      kernel.updateMemory = (.ok (), { kernel with
        live := { kernel.live with
          store := withSnapshot (Memory.wordAt kernel.memory.bytes 0).toInt64
            { kernel.live.store with host } }
        snapshotTaken := true }) := by
  have index : kernel.surface.function .updateMemory = updateMemoryIndex := by
    rw [runs.surface]
    rfl
  have invoked := invoke_updateMemory { kernel.live.store with
    host := (kernel.host.log .debug "update_memory()").beginCall } small runs.declared
  rw [← runs.program, ← index] at invoked
  refine ⟨(kernel.host.log .debug "update_memory()").beginCall, rfl, rfl, ?_⟩
  rw [HostedKernel.updateMemory,
    enter_eq_done (kernel.log .debug "update_memory()") 0 invoked]
  rfl

/-- `update_memory` takes the first word of memory as the snapshot and changes nothing else. -/
theorem updateMemory_spec (runs : kernel.Runs config frames) (small : frames.AreSmall) :
    kernel.updateMemory.1 = .ok () ∧ SameModule kernel kernel.updateMemory.2 ∧
      kernel.updateMemory.2.memory = kernel.memory ∧
      kernel.updateMemory.2.host.callback = kernel.host.callback ∧
      kernel.updateMemory.2.snapshotTaken = true ∧
      kernel.updateMemory.2.globals = globalWords config.globalConst kernel.counter
        (Memory.wordAt kernel.memory.bytes 0).toInt64 := by
  obtain ⟨host, callback, _, updated⟩ := updateMemory_eq runs small
  rw [updated]
  refine ⟨rfl, ⟨rfl, rfl, rfl⟩, rfl, callback, rfl, ?_⟩
  simp only [HostedKernel.globals, withSnapshot]
  rw [show kernel.live.store.globals = _ from runs.globals]
  rfl

theorem isBound_log (kernel : HostedKernel) (level : Level) (text : String) :
    (kernel.log level text).isBound = kernel.host.callback.isSome :=
  rfl

theorem invokeCallback_unbound (unbound : kernel.host.callback = none) :
    kernel.invokeCallback.1 = .error .unboundCallback ∧ Kept kernel kernel.invokeCallback.2 ∧
      kernel.invokeCallback.2.memory = kernel.memory := by
  obtain ⟨logged, defined⟩ : ∃ logged, logged = kernel.log .debug
    ("invoke_callback() with counter " ++ toString kernel.counter.toInt) := ⟨_, rfl⟩
  have idle : ¬ logged.isBound = true := by
    rw [defined, isBound_log, unbound]
    exact Bool.false_ne_true
  rw [HostedKernel.invokeCallback, ← defined, if_neg idle, defined]
  exact ⟨rfl, ⟨⟨rfl, rfl, rfl⟩, rfl, rfl, rfl⟩, rfl⟩

/-- The counter after a reply; a panic leaves it as it was. -/
def nextCounter (counter : Int64) : Reply → Int64
  | .value next => next
  | .panic _ => counter

/-- What a caller is told once a callback replied to the counter. -/
def toldReply (counter : Int64) : Reply → Except Failure Unit
  | .value _ => .ok ()
  | .panic payload => .error (.internalTrap
      ⟨some (HostState.panicAbort counter), Run.panicMessage .invokeCallback payload⟩)

theorem settlePanic_silent (silent : kernel.host.callbackPanic = none) :
    kernel.settlePanic = (.ok (), kernel) := by
  rw [settlePanic, silent]

/-- With a callback `invoke_callback` leaves the counter that it made, and settles a panic. -/
theorem invokeCallback_eq (runs : kernel.Runs config frames) (small : frames.AreSmall)
    {callback : Callback} (bound : kernel.host.callback = some callback) :
    ∃ host : HostState, host.callback = some callback ∧ host.lastAbort = none ∧
      host.callbackPanic = none ∧
      kernel.invokeCallback = settlePanic { kernel with live := { kernel.live with
        store := withCounter (host.callCallback kernel.counter).1
          { kernel.live.store with host := (host.callCallback kernel.counter).2 } } } := by
  obtain ⟨text, defined⟩ : ∃ text, text =
    "invoke_callback() with counter " ++ toString kernel.counter.toInt := ⟨_, rfl⟩
  have ready : (kernel.log .debug text).isBound = true := by
    rw [isBound_log, bound]
    rfl
  have index : kernel.surface.function .invokeCallback = invokeCallbackIndex := by
    rw [runs.surface]
    rfl
  have held : kernel.globals[counterIndex.toNat]? = some (.i64 kernel.counter.toUInt64) := by
    rw [runs.globals]
    rfl
  have invoked := invoke_invokeCallback { kernel.live.store with
    host := (kernel.host.log .debug text).beginCall } small held
  rw [← runs.program, ← index] at invoked
  refine ⟨(kernel.host.log .debug text).beginCall, bound, rfl, rfl, ?_⟩
  rw [HostedKernel.invokeCallback, ← defined, if_pos ready,
    enter_eq_done (kernel.log .debug text) _ invoked]
  rfl

/--
With a callback `invoke_callback` replaces the counter by the reply, unless it is a panic, which is
reported with the low bits of the counter.
-/
theorem invokeCallback_bound (runs : kernel.Runs config frames) (small : frames.AreSmall)
    {callback : Callback} (bound : kernel.host.callback = some callback) :
    kernel.invokeCallback.1 = toldReply kernel.counter (callback.call kernel.counter).1 ∧
      SameModule kernel kernel.invokeCallback.2 ∧
      kernel.invokeCallback.2.memory = kernel.memory ∧
      kernel.invokeCallback.2.host.callback = some (callback.call kernel.counter).2 ∧
      kernel.invokeCallback.2.snapshotTaken = kernel.snapshotTaken ∧
      kernel.invokeCallback.2.globals = globalWords config.globalConst
        (nextCounter kernel.counter (callback.call kernel.counter).1) kernel.snapshotWord := by
  obtain ⟨host, spoken, _, silent, invoked⟩ := invokeCallback_eq runs small bound
  have moved : kernel.globals.setIfInBounds counterIndex.toNat
      (.i64 (nextCounter kernel.counter (callback.call kernel.counter).1).toUInt64) =
        globalWords config.globalConst
          (nextCounter kernel.counter (callback.call kernel.counter).1) kernel.snapshotWord := by
    rw [runs.globals]
    rfl
  rw [invoked]
  simp only [HostState.callCallback, spoken]
  cases reply : (callback.call kernel.counter).1 with
  | value next =>
    rw [reply] at moved
    rw [settlePanic_silent (by exact silent)]
    exact ⟨rfl, ⟨rfl, rfl, rfl⟩, rfl, rfl, rfl, moved⟩
  | panic payload =>
    rw [reply] at moved
    exact ⟨rfl, ⟨rfl, rfl, rfl⟩, rfl, rfl, rfl, moved⟩

end HostedKernel

end TableKernels
