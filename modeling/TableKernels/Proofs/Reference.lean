import TableKernels.Proofs.Memory.Bytes
import TableKernels.Proofs.Verdict
import TableKernels.Registry

/-!
# The reference under a configuration

What each entry point does to the reference registry. `fibonacci` and `sieve` follow the verdict on
their argument, with the cap of the configuration in front of it, and change nothing but the journal.
-/

namespace TableKernels

variable {α : Type} {registry : Registry} {entry : EntryPoint} {argument : Int64}

/-- Outside the domain the cap of a configuration does not matter. -/
theorem Config.checkHostLimit_of_fault {config : Config} {check : ArgumentCheck}
    (fault : domainFault? entry argument = some check) :
    config.checkHostLimit entry argument = .ok () := by
  have outside : (checkDomain entry argument).isOk = false := by
    rw [checkDomain_eq, fault]
    rfl
  simp only [Config.checkHostLimit, outside, Bool.and_false, Bool.false_eq_true, if_false]
  cases config.cap? entry <;> rfl

theorem checked_verdict {run : Run α} {verdict : Verdict α} (config : Config)
    (obeys : erased (run.barrier entry) = verdict.result entry argument)
    (outside : ∀ check, domainFault? entry argument = some check → verdict = .refused check) :
    erased ((Run.ofExcept (config.checkArgument entry argument) >>= fun _ => run).barrier entry) =
      (verdict.capped config entry argument).result entry argument := by
  rw [Config.checkArgument, checkDomain_eq, Verdict.capped]
  cases fault : domainFault? entry argument with
  | some check =>
    rw [Config.checkHostLimit_of_fault fault, outside check fault]
    rfl
  | none =>
    cases limit : config.checkHostLimit entry argument with
    | error failure =>
      rw [Config.checkHostLimit_error limit]
      rfl
    | ok passed => exact obeys

namespace Registry

/-- Nothing has changed but the journal. -/
structure Kept (before after : Registry) : Prop where
  config : after.config = before.config
  memory : after.memory = before.memory
  callback : after.callback = before.callback
  counter : after.counter = before.counter
  snapshot : after.snapshot = before.snapshot

theorem traced_kept (result : Except Failure α) (level : Level) (text : String) :
    (traced entry result (registry.log level text)).1 = result ∧
      Kept registry (traced entry result (registry.log level text)).2 := by
  cases result with
  | ok value => exact ⟨rfl, rfl, rfl, rfl, rfl, rfl⟩
  | error failure => exact ⟨rfl, rfl, rfl, rfl, rfl, rfl⟩

/-- A kernel obeys its verdict, with the cap of the configuration in front of it. -/
theorem compute_obeys (number : Numeric α) (registry : Registry) (argument : Int64) :
    erased (registry.compute number.entry number.run argument).1 =
        ((number.verdict registry.config.maxPages.toNat argument).capped registry.config
          number.entry argument).result number.entry argument ∧
      Kept registry (registry.compute number.entry number.run argument).2 := by
  rw [Registry.compute]
  refine ⟨?_, (traced_kept _ _ _).2⟩
  rw [(traced_kept _ _ _).1]
  exact checked_verdict registry.config (number.told registry.budget argument)
    fun _ fault => number.refused fault

/-- `update_memory` takes the first word of memory as the snapshot. -/
theorem updateMemory_eq (size : 8 ≤ registry.memory.size) :
    registry.updateMemory = (.ok (), { registry.log .debug "update_memory()" with
      snapshot := some (Wasm.Memory.wordAt registry.memory.bytes 0).toInt64 }) := by
  have read : registry.memory.read 0 (UInt64.ofNat snapshotBytes) =
      .ok (registry.memory.bytes.extract 0 8) := by
    have range : registry.memory.checkRange 0 (UInt64.ofNat snapshotBytes) = .ok () := if_pos size
    rw [LinearMemory.read, range]
    rfl
  have logged : (registry.log .debug "update_memory()").memory.read 0
      (UInt64.ofNat snapshotBytes) = .ok (registry.memory.bytes.extract 0 8) := read
  simp only [Registry.updateMemory, logged, decode_extract size]

/-- In a memory of less than a word `update_memory` fails. -/
theorem updateMemory_short (short : registry.memory.size < 8) :
    registry.updateMemory.1 = .error (shortMemory registry.memory.size) ∧
      Kept registry registry.updateMemory.2 := by
  have refused : (registry.log .debug "update_memory()").memory.read 0
      (UInt64.ofNat snapshotBytes) =
        .error (.memoryOutOfBounds 0 8 (UInt64.ofNat registry.memory.size)) := by
    have range : registry.memory.checkRange 0 (UInt64.ofNat snapshotBytes) = .error _ :=
      if_neg (Nat.not_le.mpr short)
    change registry.memory.read 0 (UInt64.ofNat snapshotBytes) = _
    rw [LinearMemory.read, range]
    rfl
  simp only [Registry.updateMemory, refused]
  exact traced_kept _ _ _

theorem invokeCallback_unbound (unbound : registry.callback = none) :
    registry.invokeCallback.1 = .error .unboundCallback ∧
      Kept registry registry.invokeCallback.2 := by
  have logged (text : String) : (registry.log .debug text).callback = none := unbound
  simp only [Registry.invokeCallback, callHost, logged]
  exact traced_kept _ _ _

/-- With a callback that replies `invoke_callback` replaces the counter by the reply. -/
theorem invokeCallback_bound {callback : Callback} {next : Int64}
    (bound : registry.callback = some callback)
    (replies : (callback.call registry.counter).1 = .value next) :
    ∃ journal, registry.invokeCallback = (.ok (), { registry with
      callback := some (callback.call registry.counter).2, counter := next, journal }) := by
  have logged (text : String) : (registry.log .debug text).callback = some callback := bound
  have counter (text : String) : (registry.log .debug text).counter = registry.counter := rfl
  simp only [Registry.invokeCallback, callHost, logged, counter, replies]
  exact ⟨_, rfl⟩

/-- A callback that panics is reported without the counter, and the counter stays as it was. -/
theorem invokeCallback_panics {callback : Callback} {payload : PanicPayload}
    (bound : registry.callback = some callback)
    (panics : (callback.call registry.counter).1 = .panic payload) :
    ∃ journal, registry.invokeCallback =
      (.error (.internalTrap (.hostPanic .invokeCallback
          (Run.panicMessage .invokeCallback payload))),
        { registry with callback := some (callback.call registry.counter).2, journal }) := by
  have logged (text : String) : (registry.log .debug text).callback = some callback := bound
  have counter (text : String) : (registry.log .debug text).counter = registry.counter := rfl
  simp only [Registry.invokeCallback, callHost, logged, counter, panics]
  exact ⟨_, rfl⟩

theorem write_eq {offset : UInt64} {data : Bytes}
    (inside : offset.toNat + data.length ≤ registry.memory.size) :
    registry.write offset data = (.ok (), { registry with
      memory := ⟨overwrite registry.memory.bytes offset.toNat data⟩ }) := by
  have length : (UInt64.ofNat data.length).toNat ≤ data.length := by
    rw [UInt64.toNat_ofNat']
    exact Nat.mod_le _ _
  have range : registry.memory.checkRange offset (UInt64.ofNat data.length) = .ok () :=
    if_pos ((Nat.add_le_add_left length _).trans inside)
  rw [Registry.write, LinearMemory.write, range]
  rfl

end Registry

end TableKernels
