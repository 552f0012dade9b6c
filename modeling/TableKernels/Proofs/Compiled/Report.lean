import TableKernels.Proofs.Compiled.Bytes
import TableKernels.Proofs.Survey

/-!
# The report on the compiled module

Inspection of a compiled module tells its imports, its exports and the limits of its memory for every
valid configuration, as soon as its manifest can be read.
-/

namespace TableKernels

open Json Wasm Compiled

variable {config : Config}

/-! ## What is read of it -/

theorem byteCount_eq {pages : UInt64} (le : pages.toNat ≤ pageCeiling) :
    byteCount pages = .ok (UInt64.ofNat (pages.toNat * pageSize)) := by
  simp only [pageCeiling] at le
  rw [byteCount, if_pos]
  simp only [pageSize]
  omega

theorem toNat_byteCount {pages : UInt64} (le : pages.toNat ≤ pageCeiling) :
    (UInt64.ofNat (pages.toNat * pageSize)).toNat = pages.toNat * pageSize := by
  simp only [pageCeiling] at le
  refine UInt64.toNat_ofNat_of_lt' ?_
  simp only [pageSize]
  change _ < 2 ^ 64
  omega

/-- The limits of the memory of a compiled module, in bytes. -/
def kernelBounds (config : Config) : MemoryBounds :=
  ⟨UInt64.ofNat (config.initialPages.toNat * pageSize),
    some (UInt64.ofNat (config.maxPages.toNat * pageSize))⟩

/-- What a look at the sections of a compiled module finds. -/
def kernelSurvey (config : Config) : Survey where
  types := types.toArray
  imports := #[(importModule, abortImport, typeIndex abortType),
    (importModule, callbackImport, typeIndex wordType)]
  functions := #[typeIndex abortType, typeIndex wordType, typeIndex plainType,
    typeIndex plainType, typeIndex wordType, typeIndex sieveType, typeIndex reserveType]
  globals := #[⟨.f64, false, false⟩, ⟨.i64, true, false⟩, ⟨.i64, true, false⟩]
  memory := some (kernelBounds config)
  exports := exports.toArray

theorem ofOutline_kernelModule (valid : config.IsValid) :
    Survey.ofOutline ⟨(kernelModule config).sections, true⟩ = .ok (kernelSurvey config) := by
  have skips : ∀ item ∈ (kernelModule config).globals,
      Reads skipExpression item.value.encode () :=
    List.forall_mem_cons.mpr ⟨skips_f64 _,
      List.forall_mem_cons.mpr ⟨skips_i64 _, List.forall_mem_singleton.mpr (skips_i64 _)⟩⟩
  have bounds : MemoryBounds.ofType (.plain config.initialPages config.maxPages) =
      .ok (kernelBounds config) := by
    have min := byteCount_eq (valid.initial_le.trans valid.max_le)
    have max := byteCount_eq valid.max_le
    simp only [MemoryBounds.ofType, MemoryType.plain, min, max]
    rfl
  have listed : (kernelModule config).memories =
      [.plain config.initialPages config.maxPages] := rfl
  have memories (survey : Survey) (none : survey.memory = none) :
      (kernelModule config).memories.foldlM Survey.addMemory survey =
        pure { survey with memory := some (kernelBounds config) } := by
    rw [listed, List.foldlM_cons, Survey.addMemory, bounds, none]
    simp only [bind, Except.bind, pure, Except.pure, Option.none_or, List.foldlM_nil]
  have imports : (kernelModule config).imports.foldlM Survey.addImport
        { Survey.empty with types := (kernelModule config).types.toArray } =
      pure { Survey.empty with
        types := types.toArray
        imports := (kernelSurvey config).imports
        functions := #[typeIndex abortType, typeIndex wordType] } := rfl
  rw [Survey.ofOutline_sections (kernelModule_isWritable valid) skips, Survey.ofProgram, imports,
    pure_bind, memories _ rfl, pure_bind]
  rfl

/-! ## What is told of it -/

/-- The imports that are reported of a compiled module. -/
def kernelImports : List ImportReport :=
  [⟨"env", "abort", ⟨["i32", "i32", "i32", "i32"], []⟩⟩, ⟨"env", "callback", ⟨["i64"], ["i64"]⟩⟩]

/-- The exported functions that are reported of a compiled module. -/
def kernelFunctions : List FunctionReport :=
  [⟨"update_memory", ⟨[], []⟩⟩, ⟨"invoke_callback", ⟨[], []⟩⟩,
    ⟨"fibonacci", ⟨["i64"], ["i64"]⟩⟩, ⟨"sieve", ⟨["i64"], ["i32"]⟩⟩]

/-- The exported globals that are reported of a compiled module. -/
def kernelGlobals : List GlobalReport :=
  [⟨"global_const", "f64", false⟩, ⟨"from_callback", "i64", true⟩, ⟨"memory_value", "i64", true⟩]

/-- The report on bytes that hold the compiled module. -/
def kernelReport (config : Config) (bytes : Bytes) (manifest : Manifest) : ModuleReport where
  sha256 := Sha256.hexDigest bytes
  size := UInt64.ofNat bytes.length
  imports := kernelImports
  functions := kernelFunctions
  globals := kernelGlobals
  memory := some (kernelBounds config)
  manifest := some manifest

theorem importReports_kernelSurvey (config : Config) :
    (kernelSurvey config).importReports = .ok kernelImports := by
  rfl

theorem exportReports_kernelSurvey (config : Config) :
    (kernelSurvey config).exportReports (kernelSurvey config).exports.toList =
      .ok (kernelFunctions, kernelGlobals) := by
  rfl

theorem ofOutline_manifest (config : Config) :
    Manifest.ofOutline ⟨(kernelModule config).sections, true⟩ =
      ((Manifest.ofJson (Manifest.ofConfig config).toJson).mapError .unreadable).map some := by
  have content : Manifest.content? (kernelModule config).sections =
      some (Manifest.ofConfig config).toJson.toUTF8.toList := rfl
  simp only [Manifest.ofOutline, content, Manifest.ofContent, fromUTF8?_toUTF8]

/-- The manifest in the bytes of a compiled module is what its text is read as. -/
theorem ofModule_manifest (valid : config.IsValid) :
    Manifest.ofModule (kernelModule config).encode =
      ((Manifest.ofJson (Manifest.ofConfig config).toJson).mapError .unreadable).map some := by
  obtain ⟨_, _, outline⟩ := (kernelModule_isWritable valid).outline
  rw [Manifest.ofModule, outline, ofOutline_manifest]

/-- Inspection of a compiled module succeeds if its manifest can be read, and fails otherwise. -/
theorem inspect_kernelModule (valid : config.IsValid) :
    inspect (kernelModule config).encode =
      ((Manifest.ofJson (Manifest.ofConfig config).toJson).mapError
        fun fault => .manifest (.unreadable fault)).map
          (kernelReport config (kernelModule config).encode) := by
  obtain ⟨_, _, outline⟩ := (kernelModule_isWritable valid).outline
  simp only [inspect, outline, ofOutline_kernelModule valid, importReports_kernelSurvey,
    exportReports_kernelSurvey, ofOutline_manifest, bind, Except.bind]
  cases Manifest.ofJson (Manifest.ofConfig config).toJson <;> rfl

end TableKernels
