import TableKernels.Proofs.Compiled.Report
import TableKernels.Proofs.Hosted.Admission
import TableKernels.Proofs.Hosted.Entries

/-!
# Hosting a compiled module

A kernel that hosts a compiled module begins with the declared memory, all zero, with the constant
of the configuration and with nothing counted, taken or bound.
-/

namespace TableKernels

open Json Wasm Compiled

variable {config hostConfig : Config} {frames : Frames} {kernel : HostedKernel}

theorem Compiled.surface_isOf (config : Config) (frames : Frames) :
    Compiled.surface.IsOf (instanceOf config frames) where
  memory := by
    simp only [Instance.memory?, Instance.export?, instanceOf]
    decide
  function := LinkedModule.entry?_eq (instanceOf config frames) rfl rfl
  constant := by
    simp only [Instance.global?, Instance.export?, instanceOf]
    decide
  counter := by
    simp only [Instance.global?, Instance.export?, instanceOf]
    decide
  snapshot := by
    simp only [Instance.global?, Instance.export?, instanceOf]
    decide

/-- A kernel that was just made. -/
structure HostedKernel.IsFresh (config hostConfig : Config) (kernel : HostedKernel) : Prop where
  memory : kernel.memory = firstMemory config
  counter : kernel.counter = 0
  snapshotTaken : kernel.snapshotTaken = false
  callback : kernel.host.callback = none
  lastAbort : kernel.lastAbort = none
  config : kernel.config = hostConfig

/-- A kernel that hosts a compiled module runs it and is fresh. -/
theorem HostedKernel.ofModule_spec (valid : config.IsValid)
    (hosted : HostedKernel.ofModule (kernelModule config).encode hostConfig = .ok kernel) :
    ∃ frames : Frames, frames.AreSmall ∧ kernel.Runs config frames ∧
      kernel.IsFresh config hostConfig := by
  obtain ⟨frames, small, linked⟩ := LinkedModule.ofModule?_encode valid
  obtain ⟨live, surface, _, _, _, _, _, linked', isOf, rfl⟩ := exists_of_ofModule hosted
  cases linked.symm.trans linked'
  cases (Surface.ofLinked_eq_ok.mpr (surface_isOf config frames)).symm.trans
    (Surface.ofLinked_eq_ok.mpr isOf)
  refine ⟨frames, small, ?_, rfl, rfl, rfl, rfl, rfl, rfl⟩
  exact ⟨rfl, rfl, rfl, firstMemory_declared valid, maxPages_firstMemory valid⟩

/-! ## Modules that are hosted -/

/-- A compiled module whose manifest can be read is hosted under any valid configuration. -/
theorem HostedKernel.exists_ofModule {manifest : Manifest} (valid : config.IsValid)
    (read : Manifest.ofJson (Manifest.ofConfig config).toJson = .ok manifest)
    (hostValid : hostConfig.IsValid) :
    ∃ kernel, HostedKernel.ofModule (kernelModule config).encode hostConfig = .ok kernel := by
  obtain ⟨frames, _, linked⟩ := LinkedModule.ofModule?_encode valid
  have inspected := inspect_kernelModule valid
  rw [read] at inspected
  obtain ⟨_, _, hosted⟩ := ofModule_eq_ok hostValid (by rw [inspected]; rfl) linked
    (surface_isOf config frames)
  exact ⟨_, hosted⟩

theorem exists_manifest_default : ∃ manifest,
    Manifest.ofJson (Manifest.ofConfig .default).toJson = .ok manifest := by
  have read : ((Manifest.codec.read
      (Manifest.codec.write (Manifest.ofConfig .default)).compact).toOption.any
        fun result => result.2.isEmpty) = true := by
    decide +kernel
  rw [Manifest.ofJson, Manifest.toJson, compactText, Codec.parse, Reader.run, String.toList_ofList]
  cases same : Manifest.codec.read (Manifest.codec.write (Manifest.ofConfig .default)).compact with
  | error fault =>
    rw [same] at read
    cases read
  | ok result =>
    obtain ⟨manifest, rest⟩ := result
    rw [same] at read
    cases List.isEmpty_iff.mp read
    exact ⟨manifest, rfl⟩

/-- The default module is hosted under the default configuration. -/
theorem HostedKernel.exists_default : ∃ kernel,
    HostedKernel.ofModule (kernelModule .default).encode .default = .ok kernel := by
  have valid : Config.default.IsValid := Config.validate_eq_ok.mp (by decide)
  obtain ⟨_, read⟩ := exists_manifest_default
  exact HostedKernel.exists_ofModule valid read valid

end TableKernels
