import TableKernels.Compiled.Module
import TableKernels.Proofs.Configured
import TableKernels.Proofs.Decimal.Length
import TableKernels.Proofs.Wasm.Reading.Module
import TableKernels.Wasm.Source

/-!
# The bytes of the compiled module

Whatever the configuration, the compiled module is small, because its manifest is, and its bytes are
read back as the module that was written.
-/

namespace TableKernels.Compiled

open Json Wasm

variable {config : Config}

/-! ## The manifest -/

theorem write_manifest (config : Config) : Manifest.codec.write (Manifest.ofConfig config) =
    .object [("version", .string version), ("global_const", .float config.globalConst),
      ("heap_start", .integer 65536), ("max_memory_pages", .integer config.maxPages.toNat),
      ("exports", .array (exportTable.map fun row =>
        .object [("name", .string row.name), ("kind", ExportKind.codec.write row.kind)]))] :=
  rfl

theorem length_floatText (number : Binary64) : (floatText number).length ≤ 2100 := by
  unfold floatText
  split
  · rw [String.length_toList]
    exact Decimal.length_json_text number
  · decide

theorem length_integerText {number : ℕ} (small : number ≤ pageCeiling) :
    (integerText number).length ≤ 6 := by
  change (Nat.repr number).toList.length ≤ 6
  rw [String.length_toList]
  refine Nat.repr_length number 6 (by decide) ?_
  simp only [pageCeiling] at small
  omega

theorem length_manifest (valid : config.IsValid) :
    (Manifest.codec.write (Manifest.ofConfig config)).compact.length ≤ 4000 := by
  have number := length_floatText config.globalConst
  have pages := length_integerText valid.max_le
  have exports : (compact (.array (exportTable.map fun row =>
      .object [("name", .string row.name), ("kind", ExportKind.codec.write row.kind)]))).length ≤
        1000 := by
    decide +kernel
  have fixed : (quoted "version").length + (quoted version).length +
      (quoted "global_const").length + (quoted "heap_start").length + (integerText 65536).length +
        (quoted "max_memory_pages").length + (quoted "exports").length ≤ 200 := by
    decide
  rw [write_manifest]
  simp only [compact, compactMembers, List.length_append, List.length_cons, List.length_nil] at *
  omega

theorem utf8ByteSize_ofList_le (characters : List Char) :
    (String.ofList characters).utf8ByteSize ≤ 4 * characters.length := by
  induction characters with
  | nil => simp
  | cons first rest hypothesis =>
    have one : (String.ofList [first]).utf8ByteSize = first.utf8Size := by
      rw [← String.singleton_eq_ofList, String.utf8ByteSize_singleton]
    have four := first.utf8Size_le_four
    rw [← List.singleton_append, String.ofList_append, String.utf8ByteSize_append, one,
      List.length_append, List.length_singleton]
    omega

/-! ## The module -/

theorem length_manifestSection (valid : config.IsValid) :
    (Module.encodeCustom (manifestSection config)).length ≤ 40000 := by
  have manifest := length_manifest valid
  have bytes : (manifestSection config).2.length ≤ 16000 := by
    change (String.toUTF8 _).toList.length ≤ _
    rw [length_toUTF8]
    exact (utf8ByteSize_ofList_le _).trans (by omega)
  have name : (encodeName sectionName).length = 8 := by cbv
  have size := Leb128.length_ofNat_le (8 + (manifestSection config).2.length)
  change (Section.encode 0 (encodeName sectionName ++ (manifestSection config).2)).length ≤ _
  simp only [Section.encode, sized, List.length_cons, List.length_append, name]
  omega

theorem length_memories (valid : config.IsValid) :
    (Module.listed 5 MemoryType.encode (kernelModule config).memories).length ≤ 400000 := by
  have initial_le := valid.initial_le
  have max_le := valid.max_le
  have least := Leb128.length_ofNat_le config.initialPages.toNat
  have greatest := Leb128.length_ofNat_le config.maxPages.toNat
  have one : (Leb128.ofNat 1).length = 1 := by rw [Leb128.ofNat]; rfl
  have content : (vector MemoryType.encode (kernelModule config).memories).length ≤ 140000 := by
    change (Leb128.ofNat 1 ++ (((_ :: Leb128.ofNat config.initialPages.toNat) ++
      Leb128.ofNat config.maxPages.toNat ++ []) ++ [])).length ≤ _
    simp only [List.length_append, List.length_cons, List.length_nil, one]
    simp only [pageCeiling] at max_le
    omega
  have size := Leb128.length_ofNat_le
    (vector MemoryType.encode (kernelModule config).memories).length
  change (Section.encodeItems 5 MemoryType.encode (kernelModule config).memories).length ≤ _
  simp only [Section.encodeItems, Section.encode, sized, List.length_cons, List.length_append]
  omega

theorem length_globals (config : Config) :
    (Module.listed 6 Global.encode (kernelModule config).globals).length ≤ 100 := by
  have zero : (Leb128.ofInt 0).length = 1 := by rw [Leb128.ofInt]; rfl
  have content : (vector Global.encode (globals config)).length ≤ 40 := by
    have count := Leb128.length_ofNat_le (globals config).length
    simp [vector, globals, Global.encode, GlobalType.encode, Constant.encode, Constant.ofWord,
      ConstantStep.encode, Op.encode, LittleEndian.length_encode, zero] at count ⊢
    omega
  have size := Leb128.length_ofNat_le (vector Global.encode (globals config)).length
  change (Section.encodeItems 6 Global.encode (globals config)).length ≤ _
  simp only [Section.encodeItems, Section.encode, sized, List.length_cons, List.length_append]
  omega

/-- No function of the module takes bytes of data segments, so that they are not counted. -/
theorem encodeDataCount_kernelModule (config : Config) :
    (kernelModule config).encodeDataCount = [] := by
  have none : functions.any (usesData ·.body.code) = false := by decide
  rw [Module.encodeDataCount, show (kernelModule config).functions = functions from rfl, none]
  rfl

theorem length_kernelModule (valid : config.IsValid) :
    (kernelModule config).encode.length < 2 ^ 32 := by
  have memories := length_memories valid
  have globals := length_globals config
  have custom := length_manifestSection valid
  have fixed : Module.header.length + (Module.listed 1 FuncType.encode types).length +
      (Module.listed 2 Import.encode imports).length +
      (Module.listed 3 (fun function => encodeIndex function.type) functions).length +
      (Module.listed 7 Export.encode exports).length +
      (Module.listed 10 (fun function => function.body.encode) functions).length ≤ 2000 := by
    decide +kernel
  have whole : (kernelModule config).encode = Module.header ++
      Module.listed 1 FuncType.encode types ++ Module.listed 2 Import.encode imports ++
      Module.listed 3 (fun function => encodeIndex function.type) functions ++ [] ++
      Module.listed 5 MemoryType.encode (kernelModule config).memories ++
      Module.listed 6 Global.encode (kernelModule config).globals ++
      Module.listed 7 Export.encode exports ++ [] ++ [] ++ [] ++
      Module.listed 10 (fun function => function.body.encode) functions ++ [] ++
      (Module.encodeCustom (manifestSection config) ++ []) := by
    rw [Module.encode, encodeDataCount_kernelModule]
    rfl
  rw [whole]
  simp only [List.length_append, List.length_nil]
  omega

/-- The compiled module is within the limits of the format. -/
theorem kernelModule_isWritable (valid : config.IsValid) : (kernelModule config).IsWritable where
  types := by
    have arities : ∀ type ∈ types,
        type.params.length ≤ arityLimit ∧ type.results.length ≤ arityLimit := by
      decide
    exact fun type mem => reads_typeEntry (arities type mem).1 (arities type mem).2
  imports := by
    have names : ∀ item ∈ imports, item.moduleName.utf8ByteSize ≤ nameLimit ∧
        item.name.utf8ByteSize ≤ nameLimit := by
      decide
    have kinds : ∀ item ∈ imports, ∃ type, item.kind = .func type := by
      simp [imports]
    intro item mem
    obtain ⟨type, kind⟩ := kinds item mem
    exact reads_import kind (names item mem).1 (names item mem).2
  functions := by
    have bodies : ∀ function ∈ functions, areWritable function.body.code = true ∧
        function.body.locals.length ≤ Body.localLimit ∧
          Body.localCount function.body.locals ≤ Body.localLimit ∧
            usesData function.body.code = false := by
      decide
    exact fun function mem =>
      have ⟨code, groups, locals, data⟩ := bodies function mem
      ⟨code, groups, locals, data⟩
  memories := by
    have initial_le := valid.initial_le
    have max_le := valid.max_le
    simp only [pageCeiling] at max_le
    refine List.forall_mem_singleton.mpr (reads_memoryType ?_ ?_)
    · omega
    · omega
  exports := by
    have names : ∀ item ∈ exports, item.name.utf8ByteSize ≤ nameLimit := by
      decide
    exact fun item mem => reads_export (names item mem)
  customs := List.forall_mem_singleton.mpr
    (by decide : sectionName.utf8ByteSize ≤ nameLimit)
  tables := rfl
  start := rfl
  elements := rfl
  data := rfl
  short := length_kernelModule valid

/-- The module that the bytes of a source hold is the one that was compiled. -/
theorem ofSource?_encode (valid : config.IsValid) :
    Module.ofSource? (kernelModule config).encode = some (kernelModule config) := by
  have source : bytesOfSource? (kernelModule config).encode = some (kernelModule config).encode :=
    bytesOfSource?_magic_append _
  rw [Module.ofSource?, source, Option.bind_some, (kernelModule_isWritable valid).decode?_encode]

end TableKernels.Compiled
