import TableKernels.Proofs.Interchange
import TableKernels.Proofs.Ledger

/-!
# Panics of a callback

A callback that panics fails `invoke_callback` in either implementation with a report of the same
text, code and site. The column is where they part: the compiled module's host puts the low bits of
the counter there, which is what the callback was handed, and the reference always puts zero.
-/

namespace TableKernels

open Wasm Compiled

/-- The report of a callback that panicked, with what a host puts in the column. -/
def panicReport (column : Int32) (payload : PanicPayload) : TrapReport :=
  ⟨some ⟨AbortCode.hostPanic.number, EntryPoint.invokeCallback.site, 0, column⟩,
    Run.panicMessage .invokeCallback payload⟩

theorem panicReport_inj {column column' : Int32} {payload : PanicPayload} :
    panicReport column payload = panicReport column' payload ↔ column = column' := by
  simp [panicReport]

theorem Registry.panic_report {registry : Registry} {callback : Callback} {payload : PanicPayload}
    (bound : registry.callback = some callback)
    (panics : (callback.call registry.counter).1 = .panic payload) :
    registry.invokeCallback.1 = .error (.internalTrap (panicReport 0 payload)) := by
  obtain ⟨journal, invoked⟩ := invokeCallback_panics bound panics
  rw [invoked]
  rfl

variable {config hostConfig : Config} {frames : Frames} {kernel : HostedKernel}

/-- The host of a compiled module reports a panic with the low bits of the counter. -/
theorem HostedKernel.panic_report {callback : Callback} {payload : PanicPayload}
    (runs : kernel.Runs config frames) (small : frames.AreSmall)
    (bound : kernel.host.callback = some callback)
    (panics : (callback.call kernel.counter).1 = .panic payload) :
    kernel.invokeCallback.1 =
      .error (.internalTrap (panicReport kernel.counter.toInt32 payload)) := by
  obtain ⟨told, _⟩ := invokeCallback_bound runs small bound
  rw [told, panics]
  rfl

/-- In every run a hosted kernel keeps running its module. -/
theorem HostedKernel.Runs.stateAfter (runs : kernel.Runs config frames) (small : frames.AreSmall)
    (steps : List HostStep) : (Hosting.stateAfter kernel steps).Runs config frames :=
  Hosting.stateAfter_induct (Runs config frames)
    (fun runs step => (step_spec runs small step).1) runs steps

/--
After any run of a compiled module, take a registry at the same counter, and let the callback of
each panic on it in the same way. Both report an internal fault with the same text, code and site,
with an empty column by the reference and with the low bits of the counter by the host of the
module. So the reports are the same exactly when the low bits of the counter are zero.
-/
theorem panic_reports {bytes : Bytes} {reached : HostedKernel} {steps : List HostStep}
    {registry : Registry} {callback called : Callback} {payload : PanicPayload}
    (compiled : compile config = .ok bytes)
    (hosted : HostedKernel.ofModule bytes hostConfig = .ok kernel)
    (reach : Hosting.stateAfter kernel steps = reached)
    (counter : registry.counter = reached.counter)
    (bound : reached.host.callback = some callback)
    (panics : (callback.call reached.counter).1 = .panic payload)
    (registered : registry.callback = some called)
    (fails : (called.call registry.counter).1 = .panic payload) :
    reached.invokeCallback.1 =
        .error (.internalTrap (panicReport reached.counter.toInt32 payload)) ∧
      registry.invokeCallback.1 = .error (.internalTrap (panicReport 0 payload)) ∧
        (reached.invokeCallback.1 = registry.invokeCallback.1 ↔
          registry.counter.toInt32 = 0) := by
  obtain ⟨valid, rfl⟩ := compile_eq_ok.mp compiled
  obtain ⟨frames, small, runs, _⟩ := HostedKernel.ofModule_spec valid hosted
  have still : reached.Runs config frames := reach ▸ runs.stateAfter small steps
  have told := HostedKernel.panic_report still small bound panics
  have expected := Registry.panic_report registered fails
  refine ⟨told, expected, ?_⟩
  rw [told, expected, counter, Except.error.injEq, Failure.internalTrap.injEq, panicReport_inj]

/-- The default module reports a panic on a counter of zero as the reference does. -/
theorem panic_reports_default : ∃ bytes kernel, compile .default = .ok bytes ∧
    HostedKernel.ofModule bytes .default = .ok kernel ∧
      (kernel.bind booming).invokeCallback.1 = (Registry.new.bind booming).invokeCallback.1 := by
  have valid : Config.default.IsValid := Config.validate_eq_ok.mp (by decide)
  have compiled := compile_eq_ok.mpr ⟨valid, rfl⟩
  obtain ⟨kernel, hosted⟩ := HostedKernel.exists_default
  obtain ⟨_, _, _, fresh⟩ := HostedKernel.ofModule_spec valid hosted
  have counter : (kernel.bind booming).counter = 0 := fresh.counter
  have reach : Hosting.stateAfter kernel [.perform (.bind booming)] = kernel.bind booming := rfl
  have registered : (Registry.new.bind booming).callback = some booming := rfl
  have reports := panic_reports compiled hosted reach counter.symm rfl rfl registered rfl
  exact ⟨_, kernel, compiled, hosted, reports.2.2.mpr rfl⟩

/-- A callback that adds one, and panics when it is called again. -/
def boomingLater : Callback := .new fun heard value =>
  if heard.isEmpty then .value (value + 1) else .panic (.text "boom")

/-- A fresh kernel whose callback returned once has a counter of one, and a callback that panics. -/
theorem HostedKernel.boomingLater_returns (runs : kernel.Runs config frames)
    (small : frames.AreSmall) (fresh : kernel.counter = 0) :
    ∃ reached, (kernel.bind boomingLater).invokeCallback.2 = reached ∧
      reached.Runs config frames ∧ reached.counter = 1 ∧
        reached.host.callback = some ⟨boomingLater.reply, [0]⟩ := by
  have bound : (kernel.bind boomingLater).host.callback = some boomingLater := rfl
  have counter : (kernel.bind boomingLater).counter = 0 := fresh
  have ready : (kernel.bind boomingLater).Runs config frames := runs.withHost _
  obtain ⟨_, same, memory, heard, _, globals⟩ := invokeCallback_bound ready small bound
  rw [counter] at heard globals
  obtain ⟨after, moved, _⟩ := same.runs ready memory globals
  exact ⟨_, rfl, after, moved, heard⟩

/-- The two implementations of the default configuration report one panic differently. -/
theorem panic_reports_differ : ∃ kernel registry, HostedKernel.ofConfig .default = .ok kernel ∧
    Registry.ofConfig .default = .ok registry ∧
      (kernel.bind boomingLater).invokeCallback.2.counter = 1 ∧
        (registry.bind boomingLater).invokeCallback.2.counter = 1 ∧
          (kernel.bind boomingLater).invokeCallback.2.invokeCallback.1 ≠
            (registry.bind boomingLater).invokeCallback.2.invokeCallback.1 := by
  have valid : Config.default.IsValid := Config.validate_eq_ok.mp (by decide)
  have compiled := compile_eq_ok.mpr ⟨valid, rfl⟩
  obtain ⟨kernel, hosted⟩ := HostedKernel.exists_default
  obtain ⟨frames, small, runs, fresh⟩ := HostedKernel.ofModule_spec valid hosted
  obtain ⟨reached, reach, still, counter, bound⟩ :=
    HostedKernel.boomingLater_returns runs small fresh.counter
  have panics : (Callback.call ⟨boomingLater.reply, [0]⟩ reached.counter).1 =
      .panic (.text "boom") := by
    rw [counter]
    rfl
  have report := HostedKernel.panic_report still small bound panics
  have ready : (Registry.new.bind boomingLater).callback = some boomingLater := rfl
  obtain ⟨journal, invoked⟩ := Registry.invokeCallback_bound ready (rfl : _ = Reply.value 1)
  refine ⟨kernel, .new, (HostedKernel.ofConfig_eq compiled).trans hosted, rfl,
    reach ▸ counter, ?_, ?_⟩
  · rw [invoked]
  · rw [reach, report, counter, invoked, Registry.panic_report rfl rfl]
    simp [panicReport_inj]

end TableKernels
