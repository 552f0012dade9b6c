import TableKernels.Proofs.Compiled.Bytes
import TableKernels.Proofs.Compiled.Layout

/-!
# The compiled module is valid

Each body leaves what its type promises, and the limits of the memory are consistent because those
of the configuration are. So every valid configuration is compiled.
-/

namespace TableKernels.Compiled

open Wasm

variable {config : Config} {minPages maxPages : UInt64}

/-- The types of the globals of the module. -/
def globalTypes : List GlobalType :=
  [⟨.f64, false, false⟩, ⟨.i64, true, false⟩, ⟨.i64, true, false⟩]

/-- What the functions of the module may refer to. -/
def scopeOf (minPages maxPages : UInt64) (locals results : List ValType) : Scope :=
  ⟨types, functionTypes, globalTypes, [.plain minPages maxPages], [], [], 0, [2, 3, 4, 5],
    locals, results⟩

theorem check_updateMemory : (scopeOf minPages maxPages [] []).checkFunction
    Compiled.updateMemory.code = true := by
  cbv

theorem check_invokeCallback : (scopeOf minPages maxPages [] []).checkFunction
    Compiled.invokeCallback.code = true := by
  cbv

theorem check_fibonacci : (scopeOf minPages maxPages [.i64, .i64, .i32] [.i64]).checkFunction
    Compiled.fibonacci.code = true := by
  cbv

theorem check_sieve : (scopeOf minPages maxPages (List.replicate 8 .i64) [.i32]).checkFunction
    Compiled.sieve.code = true := by
  cbv

theorem check_reserve : (scopeOf minPages maxPages [.i64, .i32, .i64] []).checkFunction
    Compiled.reserve.code = true := by
  cbv

theorem isFunctionValid_of {function : Function} (type : FuncType)
    (typed : types[function.type.toNat]? = some type)
    (runnable : function.body.locals.all (·.2.isRunnable) = true)
    (check : (scopeOf config.initialPages config.maxPages (Module.localTypes type function.body)
      type.results).checkFunction function.body.code = true) :
    (kernelModule config).isFunctionValid functionTypes function = true := by
  have sameType : (kernelModule config).types[function.type.toNat]? = some type := typed
  have sameCheck : ((kernelModule config).scope functionTypes type function.body).checkFunction
    function.body.code = true := check
  simp only [Module.isFunctionValid, sameType, sameCheck, runnable, Bool.and_true]

theorem functions_valid (config : Config) :
    ∀ function ∈ functions,
      (kernelModule config).isFunctionValid functionTypes function = true := by
  simp only [functions, List.forall_mem_cons]
  refine ⟨?_, ?_, ?_, ?_, ?_, List.forall_mem_nil _⟩
  · exact isFunctionValid_of plainType rfl rfl check_updateMemory
  · exact isFunctionValid_of plainType rfl rfl check_invokeCallback
  · exact isFunctionValid_of wordType rfl rfl check_fibonacci
  · exact isFunctionValid_of sieveType rfl rfl check_sieve
  · exact isFunctionValid_of reserveType rfl rfl check_reserve

theorem memory_valid (valid : config.IsValid) :
    Module.isMemoryValid (.plain config.initialPages config.maxPages) = true := by
  have initial_le := valid.initial_le
  have max_le := valid.max_le
  simp only [pageCeiling] at max_le
  have least : config.initialPages.toNat ≤ Module.pageReach false := by
    change _ ≤ 65536
    omega
  have greatest : config.maxPages.toNat ≤ Module.pageReach false := max_le
  have ordered : config.initialPages ≤ config.maxPages := UInt64.le_iff_toNat_le.mpr initial_le
  simp [Module.isMemoryValid, MemoryType.plain, Module.isWithin, least, greatest, ordered]

theorem exportNames_nodup : (exports.map (·.name)).Nodup := by
  decide

theorem kernelModule_isValid (valid : config.IsValid) : (kernelModule config).isValid = true := by
  have types : (kernelModule config).functionTypes? = some functionTypes := rfl
  have memories : (kernelModule config).allMemories.all Module.isMemoryValid = true := by
    change ([_] : List MemoryType).all _ = true
    rw [List.all_cons, memory_valid valid]
    rfl
  have functions : (kernelModule config).functions.all
      ((kernelModule config).isFunctionValid functionTypes) = true :=
    List.all_eq_true.mpr (functions_valid config)
  have names : decide (((kernelModule config).exports.map (·.name)).Nodup) = true :=
    decide_eq_true exportNames_nodup
  simp only [Module.isValid, types, memories, functions, names]
  rfl

/-- Every valid configuration is compiled, to the bytes of its module. -/
theorem compile_eq_ok {bytes : Bytes} :
    compile config = .ok bytes ↔ config.IsValid ∧ bytes = (kernelModule config).encode := by
  have unfolded : compile config = (config.validate.mapError .invalidConfig >>= fun _ =>
      if (kernelModule config).isValid then pure (kernelModule config).encode
      else throw .invalidModule) := rfl
  rw [unfolded, ← Config.validate_eq_ok]
  rcases outcome : config.validate with fault | _
  · exact ⟨nofun, fun both => absurd both.1 nofun⟩
  · have isValid := kernelModule_isValid (Config.validate_eq_ok.mp outcome)
    change (if (kernelModule config).isValid = true then Except.ok (kernelModule config).encode
      else throw CompileFault.invalidModule) = .ok bytes ↔ _
    rw [if_pos isValid, Except.ok.injEq]
    exact ⟨fun same => ⟨rfl, same.symm⟩, fun both => both.2.symm⟩

end TableKernels.Compiled
