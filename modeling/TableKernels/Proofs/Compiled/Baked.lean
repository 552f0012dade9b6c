import TableKernels.Proofs.Compiled.Bytes
import TableKernels.Proofs.Compiled.WellTyped

/-!
# What is baked into a module

The bytes of a compiled module are fixed by three fields of its configuration, the constant and the
two limits of the memory, and they fix these in turn: the bytes are read back as one module only,
which shows the constant in its first global and the limits in its memory. The caps are the host's
own affair and leave no trace.
-/

namespace TableKernels

open Wasm Compiled

theorem Wasm.Module.IsWritable.eq_of_encode_eq {program other : Module}
    (writable : program.IsWritable) (writable' : other.IsWritable)
    (same : program.encode = other.encode) : program = other := by
  have read := writable.decode?_encode
  rw [same, writable'.decode?_encode] at read
  exact (Option.some.inj read).symm

namespace Compiled

variable {config first second : Config}

theorem kernelModule_congr (constant : first.globalConst = second.globalConst)
    (initialPages : first.initialPages = second.initialPages)
    (maxPages : first.maxPages = second.maxPages) : kernelModule first = kernelModule second := by
  simp only [kernelModule, globals, manifestSection, Manifest.ofConfig, constant, initialPages,
    maxPages]

theorem kernelModule_inj : kernelModule first = kernelModule second ↔
    first.globalConst.bits = second.globalConst.bits ∧
      first.initialPages = second.initialPages ∧ first.maxPages = second.maxPages := by
  constructor
  · intro same
    have memories : [MemoryType.plain first.initialPages first.maxPages] =
        [MemoryType.plain second.initialPages second.maxPages] := congrArg Module.memories same
    have values : (globals first).map (·.value) = (globals second).map (·.value) :=
      congrArg (fun program : Module => program.globals.map (·.value)) same
    simp only [MemoryType.plain, List.cons.injEq, MemoryType.mk.injEq, Option.some.injEq,
      and_true] at memories
    simp only [globals, Constant.ofWord, List.map_cons, List.cons.injEq, ConstantStep.push.injEq,
      Word.f64.injEq, and_true] at values
    exact ⟨values, memories.1, memories.2⟩
  · rintro ⟨bits, initialPages, maxPages⟩
    exact kernelModule_congr (congrArg Binary64.mk bits) initialPages maxPages

/-- Valid configurations are compiled alike if and only if they ask for the same module. -/
theorem compile_eq_compile (valid : first.IsValid) (valid' : second.IsValid) :
    compile first = compile second ↔ kernelModule first = kernelModule second := by
  rw [compile_eq_ok.mpr ⟨valid, rfl⟩, compile_eq_ok.mpr ⟨valid', rfl⟩, Except.ok.injEq]
  exact ⟨(kernelModule_isWritable valid).eq_of_encode_eq (kernelModule_isWritable valid'),
    congrArg Module.encode⟩

theorem isValid_withConstant (valid : config.IsValid) (constant : Binary64)
    (finite : constant.isFinite = true) :
    Config.IsValid { config with globalConst := constant } :=
  ⟨finite, valid.initial_pos, valid.initial_le, valid.max_le, valid.fibonacciCap, valid.sieveCap⟩

/--
Two valid configurations are compiled to the same bytes exactly if the bits of their constants and
their limits of memory are the same. So caps leave no trace in the bytes, whereas the two zeros do.
-/
theorem compile_eq_iff_baked (first second : Config) (valid : first.validate = .ok ())
    (valid' : second.validate = .ok ()) :
    (∃ bytes bytes', compile first = .ok bytes ∧ compile second = .ok bytes' ∧
      (bytes = bytes' ↔ first.globalConst.bits = second.globalConst.bits ∧
        first.initialPages = second.initialPages ∧ first.maxPages = second.maxPages)) ∧
      (∀ fibonacciCap sieveCap : Option Int64,
        Config.validate { first with fibonacciCap, sieveCap } = .ok () →
          compile { first with fibonacciCap, sieveCap } = compile first) ∧
        compile { first with globalConst := ⟨0⟩ } ≠
          compile { first with globalConst := ⟨0x8000000000000000⟩ } := by
  have isValid := Config.validate_eq_ok.mp valid
  have isValid' := Config.validate_eq_ok.mp valid'
  have compiled := compile_eq_ok.mpr ⟨isValid, rfl⟩
  have compiled' := compile_eq_ok.mpr ⟨isValid', rfl⟩
  refine ⟨⟨_, _, compiled, compiled', ?_⟩, fun fibonacciCap sieveCap capped => ?_, fun same => ?_⟩
  · have iff := compile_eq_compile isValid isValid'
    rwa [compiled, compiled', Except.ok.injEq, kernelModule_inj] at iff
  · exact (compile_eq_compile (Config.validate_eq_ok.mp capped) isValid).mpr
      (kernelModule_congr rfl rfl rfl)
  · have positive := isValid_withConstant isValid ⟨0⟩ (by decide)
    have negative := isValid_withConstant isValid ⟨0x8000000000000000⟩ (by decide)
    have zeros := kernelModule_inj.mp ((compile_eq_compile positive negative).mp same)
    exact absurd zeros.1 (by decide : ¬ (0 : UInt64) = 0x8000000000000000)

/-- A cap does not change the bytes of the default module, and another page limit does. -/
theorem compile_eq_iff_baked_default :
    compile { Config.default with fibonacciCap := some 10, sieveCap := none } =
        compile .default ∧
      ∃ bytes bytes', compile .default = .ok bytes ∧
        compile { Config.default with maxPages := 2049 } = .ok bytes' ∧ bytes ≠ bytes' := by
  obtain ⟨⟨bytes, bytes', compiled, compiled', iff⟩, capped, _⟩ :=
    compile_eq_iff_baked .default { Config.default with maxPages := 2049 } (by decide) (by decide)
  refine ⟨capped _ _ (by decide), bytes, bytes', compiled, compiled', fun same => ?_⟩
  exact absurd (iff.mp same).2.2 (by decide)

end Compiled

end TableKernels
