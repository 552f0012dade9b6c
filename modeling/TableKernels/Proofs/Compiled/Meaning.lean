import TableKernels.Proofs.Hosted.Start

/-!
# What a configuration is compiled to

Compilation of a valid configuration succeeds, and what it writes can be read in every way there is:
as a module, as a manifest, as a report and as something to host. All of them tell what the
configuration says. An invalid configuration is refused for the reason that validation gives.
-/

namespace TableKernels.Compiled

open Json Wasm

variable {config : Config} {program : Module}

/-- The type of an imported function. -/
def importType? (program : Module) (item : Import) : Option FuncType :=
  match item.kind with
  | .func type => program.types[type.toNat]?
  | _ => none

/-- The type of a function of the module. -/
def functionType? (program : Module) (function : Function) : Option FuncType :=
  program.types[function.type.toNat]?

/-- A module with all that a configuration asks for and nothing else. -/
structure IsKernelOf (config : Config) (program : Module) : Prop where
  imports : program.imports.map (fun item =>
      (item.moduleName, item.name, importType? program item)) =
    [("env", "abort", some ⟨[.i32, .i32, .i32, .i32], []⟩),
      ("env", "callback", some ⟨[.i64], [.i64]⟩)]
  functions : program.functions.map (fun function =>
      (functionType? program function, function.body)) =
    [(some ⟨[], []⟩, updateMemory), (some ⟨[], []⟩, invokeCallback),
      (some ⟨[.i64], [.i64]⟩, fibonacci), (some ⟨[.i64], [.i32]⟩, sieve),
      (some ⟨[.i64, .i32], []⟩, reserve)]
  memories : program.memories = [⟨config.initialPages, some config.maxPages, false, false, none⟩]
  globals : program.globals =
    [⟨⟨.f64, false, false⟩, [.push (.f64 config.globalConst.bits)]⟩,
      ⟨⟨.i64, true, false⟩, [.push (.i64 0)]⟩, ⟨⟨.i64, true, false⟩, [.push (.i64 0)]⟩]
  exports : program.exports.map (fun item => (item.name, item.kind, item.index.toNat)) =
    exportTable.map fun row => (row.name, externKind row.kind, row.index)
  customs : program.customs =
    [("numkern", (Manifest.ofConfig config).toJson.toUTF8.toList)]
  tables : program.tables = []
  start : program.start = none
  elements : program.elements = []
  data : program.data = []

theorem kernelModule_isKernelOf (config : Config) : IsKernelOf config (kernelModule config) where
  imports := rfl
  functions := rfl
  memories := rfl
  globals := rfl
  exports := rfl
  customs := rfl
  tables := rfl
  start := rfl
  elements := rfl
  data := rfl

theorem kernelBounds_toNat (valid : config.IsValid) :
    (kernelBounds config).min.toNat = config.initialPages.toNat * 65536 ∧
      (kernelBounds config).max.map UInt64.toNat = some (config.maxPages.toNat * 65536) :=
  ⟨toNat_byteCount (valid.initial_le.trans valid.max_le),
    congrArg some (toNat_byteCount valid.max_le)⟩

theorem kernelReport_size (valid : config.IsValid) (manifest : Manifest) :
    (kernelReport config (kernelModule config).encode manifest).size.toNat =
      (kernelModule config).encode.length := by
  have short := length_kernelModule valid
  refine UInt64.toNat_ofNat_of_lt' ?_
  change _ < 2 ^ 64
  omega

/--
A valid configuration is compiled to bytes that hold exactly the module it asks for, with a manifest
that is what its text is read as. As soon as that text can be read, the bytes are reported with the
documented signatures, types and limits, and every valid configuration hosts them. An invalid
configuration is refused with the fault that validation finds.
-/
theorem compile_means (config : Config) :
    (∀ fault, config.validate = .error fault → compile config = .error (.invalidConfig fault)) ∧
      (config.validate = .ok () → ∃ bytes program, compile config = .ok bytes ∧
        Module.decode? bytes = some program ∧ IsKernelOf config program ∧
        Manifest.ofModule bytes =
          ((Manifest.ofJson (Manifest.ofConfig config).toJson).mapError .unreadable).map some ∧
        ∀ manifest, Manifest.ofJson (Manifest.ofConfig config).toJson = .ok manifest →
          inspect bytes = .ok (kernelReport config bytes manifest) ∧
          (kernelReport config bytes manifest).size.toNat = bytes.length ∧
          (kernelBounds config).min.toNat = config.initialPages.toNat * 65536 ∧
          (kernelBounds config).max.map UInt64.toNat = some (config.maxPages.toNat * 65536) ∧
          ∀ hostConfig : Config, hostConfig.validate = .ok () →
            ∃ kernel, HostedKernel.ofModule bytes hostConfig = .ok kernel) := by
  refine ⟨fun fault refused => ?_, fun accepted => ?_⟩
  · rw [compile, refused]
    rfl
  · have valid := Config.validate_eq_ok.mp accepted
    refine ⟨(kernelModule config).encode, kernelModule config, compile_eq_ok.mpr ⟨valid, rfl⟩,
      (kernelModule_isWritable valid).decode?_encode, kernelModule_isKernelOf config,
      ofModule_manifest valid, fun manifest read => ?_⟩
    have inspected := inspect_kernelModule valid
    rw [read] at inspected
    obtain ⟨min, max⟩ := kernelBounds_toNat valid
    exact ⟨inspected, kernelReport_size valid manifest, min, max, fun hostConfig hostAccepted =>
      HostedKernel.exists_ofModule valid read (Config.validate_eq_ok.mp hostAccepted)⟩

/-- The default module is reported and hosted; without a page there is no module. -/
theorem compile_means_default :
    compile { Config.default with initialPages := 0 } = .error (.invalidConfig .noInitialPages) ∧
      ∃ bytes manifest kernel, compile .default = .ok bytes ∧
        inspect bytes = .ok (kernelReport .default bytes manifest) ∧
          HostedKernel.ofModule bytes .default = .ok kernel := by
  have accepted : Config.default.validate = .ok () := by decide
  refine ⟨(compile_means _).1 _ (by decide), ?_⟩
  obtain ⟨bytes, _, compiled, _, _, _, means⟩ := (compile_means .default).2 accepted
  obtain ⟨manifest, read⟩ := exists_manifest_default
  obtain ⟨inspected, _, _, _, hosts⟩ := means manifest read
  obtain ⟨kernel, hosted⟩ := hosts .default accepted
  exact ⟨bytes, manifest, kernel, compiled, inspected, hosted⟩

end TableKernels.Compiled
