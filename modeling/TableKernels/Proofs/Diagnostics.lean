import TableKernels.Proofs.Hosted.Diagnostics

/-!
# What a host shows of the latest call

The result of a call that enters a compiled module and the diagnostic that its host shows afterwards
tell the same. A call that the host refuses does not enter, so the host goes on showing the
diagnostic of the latest call that did, even though the refused call itself reported none.
-/

namespace TableKernels

open Wasm Compiled

variable {config hostConfig : Config} {frames : Frames} {kernel : HostedKernel}

/-! ## Calls that enter -/

/--
After any run, a call that enters the module leaves no diagnostic if it succeeds, and that of its
failure if it fails. An argument outside the domain is refused in full, and the module reports its
low bits. The diagnostic stays until an entry point is called again.
-/
theorem diagnostic_of_entered (config hostConfig : Config) (bytes : Bytes)
    (kernel : HostedKernel) (compiled : compile config = .ok bytes)
    (hosted : HostedKernel.ofModule bytes hostConfig = .ok kernel) (steps : List HostStep)
    (operation : Operation) (entry : EntryPoint) (arguments : List Int64)
    (entered : operation.entered? = some (entry, arguments))
    (admitted : (kernel.afterAll steps).hostRefusal? entry arguments = none) :
    (∀ answer, (operation.run (kernel.afterAll steps)).1 = .ok answer →
        (operation.run (kernel.afterAll steps)).2.lastAbort = none) ∧
      (∀ failure, (operation.run (kernel.afterAll steps)).1 = .error failure →
        (operation.run (kernel.afterAll steps)).2.lastAbort = failure.abort? ∧
          failure.abort?.isSome = true) ∧
      (∀ argument check, arguments.head? = some argument →
        domainFault? entry argument = some check →
          (operation.run (kernel.afterAll steps)).1 =
              .error (.invalidArgument entry argument check) ∧
            (operation.run (kernel.afterAll steps)).2.lastAbort =
              some ⟨AbortCode.invalidArgument.number, entry.site, check.line, argument.toInt32⟩) ∧
      ∀ others : List HostStep, (∀ step ∈ others, step.IsQuiet) →
        ((operation.run (kernel.afterAll steps)).2.afterAll others).lastAbort =
          (operation.run (kernel.afterAll steps)).2.lastAbort := by
  obtain ⟨valid, rfl⟩ := compile_eq_ok.mp compiled
  obtain ⟨frames, small, runs, _⟩ := HostedKernel.ofModule_spec valid hosted
  obtain ⟨reached, _⟩ := HostedKernel.afterAll_spec small steps runs
  have shows := (HostedKernel.operation_tells reached small entered).entered admitted
  refine ⟨fun answer succeeded => ?_, fun failure failed => ?_, fun argument check first fault => ?_,
    fun others quiet => HostedKernel.afterAll_quiet _ quiet⟩
  · rw [shows.diagnostic, succeeded]
    rfl
  · have shown := shows.failed (by rw [failed]; rfl)
    rw [shows.diagnostic, failed] at shown
    exact ⟨shows.diagnostic.trans (congrArg diagnostic? failed), shown⟩
  · obtain ⟨rest, rfl⟩ := List.head?_eq_some_iff.mp first
    have failed : (operation.run (kernel.afterAll steps)).1 =
        .error (.invalidArgument entry argument check) := by
      rw [Operation.run_of_entered entered, Prod.map_fst,
        HostedKernel.run_of_fault reached small fault rest]
      rfl
    exact ⟨failed, shows.diagnostic.trans (congrArg diagnostic? failed)⟩

/-- The default module refuses a great negative number in full and reports its low bits. -/
theorem diagnostic_of_entered_default : ∃ bytes kernel, compile .default = .ok bytes ∧
    HostedKernel.ofModule bytes .default = .ok kernel ∧
      kernel.hostRefusal? .fibonacci [-5000000000] = none ∧
        ((Operation.fibonacci (-5000000000)).run kernel).1 =
            .error (.invalidArgument .fibonacci (-5000000000) .negative) ∧
          ((Operation.fibonacci (-5000000000)).run kernel).2.lastAbort =
            some ⟨1, 1, 1, -705032704⟩ := by
  have valid : Config.default.IsValid := Config.validate_eq_ok.mp (by decide)
  have compiled := compile_eq_ok.mpr ⟨valid, rfl⟩
  obtain ⟨kernel, hosted⟩ := HostedKernel.exists_default
  obtain ⟨_, _, _, fresh⟩ := HostedKernel.ofModule_spec valid hosted
  have admitted : kernel.hostRefusal? .fibonacci [-5000000000] = none := by
    rw [HostedKernel.hostRefusal?, fresh.config]
    rfl
  obtain ⟨_, _, refused, _⟩ := diagnostic_of_entered .default .default _ kernel compiled hosted []
    (.fibonacci (-5000000000)) .fibonacci [-5000000000] rfl admitted
  exact ⟨_, kernel, compiled, hosted, admitted, refused (-5000000000) .negative rfl (by decide)⟩

/-! ## Calls that are refused -/

/--
After any run, a call that the host refuses before it enters the module fails and leaves the
diagnostic of the latest call that entered. So the host shows none exactly if no call has entered
since the module was loaded, or the latest that did succeeded.
-/
theorem diagnostic_of_refused (config hostConfig : Config) (bytes : Bytes)
    (kernel : HostedKernel) (compiled : compile config = .ok bytes)
    (hosted : HostedKernel.ofModule bytes hostConfig = .ok kernel) (steps : List HostStep)
    (operation : Operation) (entry : EntryPoint) (arguments : List Int64) (failure : Failure)
    (entered : operation.entered? = some (entry, arguments))
    (refused : (kernel.afterAll steps).hostRefusal? entry arguments = some failure) :
    (operation.run (kernel.afterAll steps)).1 = .error failure ∧
      (operation.run (kernel.afterAll steps)).2.ShowsLatest (kernel.latestResult none steps) ∧
      ((operation.run (kernel.afterAll steps)).2.lastAbort = none ↔
        ∀ failure, kernel.latestResult none steps ≠ some (.error failure)) := by
  obtain ⟨valid, rfl⟩ := compile_eq_ok.mp compiled
  obtain ⟨frames, small, runs, fresh⟩ := HostedKernel.ofModule_spec valid hosted
  obtain ⟨reached, _⟩ := HostedKernel.afterAll_spec small steps runs
  have silent : kernel.ShowsLatest none := fresh.lastAbort
  obtain ⟨failed, same⟩ :=
    (HostedKernel.operation_tells reached small entered).refused failure refused
  have shows := (HostedKernel.afterAll_shows runs small silent steps).kept same
  exact ⟨failed, shows, shows.eq_none_iff⟩

/-- The default configuration with a cap on the argument of `fibonacci`. -/
def cappedConfig : Config := { Config.default with fibonacciCap := some 10 }

/-- A kernel under the cap whose module refused an argument will refuse another without entering. -/
theorem HostedKernel.exists_capped : ∃ kernel frames, frames.AreSmall ∧
    kernel.Runs cappedConfig frames ∧ kernel.lastAbort = none ∧
      HostedKernel.ofModule (kernelModule cappedConfig).encode cappedConfig = .ok kernel ∧
        (kernel.afterAll [.perform (.fibonacci (-1))]).hostRefusal? .fibonacci [11] =
            some (.invalidArgument .fibonacci 11 .exceedsHostLimit) ∧
          kernel.latestResult none [.perform (.fibonacci (-1))] =
              some (.error (.invalidArgument .fibonacci (-1) .negative)) := by
  have valid : cappedConfig.IsValid := Config.validate_eq_ok.mp (by decide)
  obtain ⟨manifest, read⟩ := exists_manifest_default
  obtain ⟨kernel, hosted⟩ := HostedKernel.exists_ofModule valid read valid
  obtain ⟨frames, small, runs, fresh⟩ := HostedKernel.ofModule_spec valid hosted
  have config : (kernel.afterAll [.perform (.fibonacci (-1))]).config = cappedConfig :=
    (compute_obeys .fibonacci runs small (-1)).kept.config.trans fresh.config
  have admitted : kernel.hostRefusal? .fibonacci [-1] = none := by
    rw [HostedKernel.hostRefusal?, fresh.config]
    rfl
  refine ⟨kernel, frames, small, runs, fresh.lastAbort, hosted, ?_, ?_⟩
  · rw [HostedKernel.hostRefusal?, config]
    rfl
  · have fault : domainFault? .fibonacci (-1) = some .negative := by decide
    simp only [latestResult, HostStep.result?, Operation.entered?, Option.bind_eq_bind,
      Option.bind_some, admitted, Option.some_or]
    refine congrArg some ?_
    change (Kernel.run .fibonacci [-1] kernel).1.map Answer.scalar = _
    rw [run_of_fault runs small fault []]
    rfl

/-- Above the cap the refused call leaves the diagnostic of the call before it. -/
theorem diagnostic_of_refused_capped : ∃ bytes kernel, compile cappedConfig = .ok bytes ∧
    HostedKernel.ofModule bytes cappedConfig = .ok kernel ∧
      (kernel.afterAll [.perform (.fibonacci (-1))]).hostRefusal? .fibonacci [11] =
          some (.invalidArgument .fibonacci 11 .exceedsHostLimit) ∧
        ((Operation.fibonacci 11).run (kernel.afterAll [.perform (.fibonacci (-1))])).2.Shows
          (.error (.invalidArgument .fibonacci (-1) .negative) : Except Failure Answer) := by
  have valid : cappedConfig.IsValid := Config.validate_eq_ok.mp (by decide)
  have compiled := compile_eq_ok.mpr ⟨valid, rfl⟩
  obtain ⟨kernel, _, _, _, _, hosted, refused, latest⟩ := HostedKernel.exists_capped
  obtain ⟨_, shows, _⟩ := diagnostic_of_refused cappedConfig cappedConfig _ kernel compiled hosted
    [.perform (.fibonacci (-1))] (.fibonacci 11) .fibonacci [11] _ rfl refused
  rw [latest] at shows
  exact ⟨_, kernel, compiled, hosted, refused, shows⟩

/-- A call above the cap reports nothing, and still the host shows a diagnostic after it. -/
theorem refused_call_shows_diagnostic : ∃ bytes kernel, compile cappedConfig = .ok bytes ∧
    HostedKernel.ofModule bytes cappedConfig = .ok kernel ∧
      (((kernel.fibonacci (-1)).2).fibonacci 11).1 =
          .error (.invalidArgument .fibonacci 11 .exceedsHostLimit) ∧
        (((kernel.fibonacci (-1)).2).fibonacci 11).2.lastAbort = some ⟨1, 1, 1, -1⟩ := by
  have valid : cappedConfig.IsValid := Config.validate_eq_ok.mp (by decide)
  have compiled := compile_eq_ok.mpr ⟨valid, rfl⟩
  obtain ⟨kernel, frames, small, runs, silent, hosted, refused, latest⟩ :=
    HostedKernel.exists_capped
  have fresh : kernel.ShowsLatest none := silent
  have shows := HostedKernel.afterAll_shows runs small fresh [.perform (.fibonacci (-1))]
  rw [latest] at shows
  obtain ⟨reached, _⟩ := HostedKernel.afterAll_spec small [.perform (.fibonacci (-1))] runs
  obtain ⟨failed, same⟩ := (HostedKernel.compute_tells .fibonacci reached small 11).refused _ refused
  exact ⟨_, kernel, compiled, hosted, failed, same.trans shows.diagnostic⟩

end TableKernels
