import TableKernels.Hosted.Linked
import TableKernels.Proofs.Compiled.Guard
import TableKernels.Proofs.Compiled.Reserve
import TableKernels.Proofs.Compiled.WellTyped
import TableKernels.Proofs.Wasm.Loading

/-!
# The instance of a compiled module

The bytes that are compiled for a valid configuration are linked and started. The instance begins
with the declared memory, all zero, and with the constant and two zeros as its globals.
-/

namespace TableKernels

open Wasm Compiled

namespace Compiled

variable {config : Config} {memories : List MemoryType}

/-- Every compiled function is content with few cells. -/
structure Frames.AreSmall (frames : Frames) : Prop where
  updateMemory : frames.updateMemory ≤ cellBound
  invokeCallback : frames.invokeCallback ≤ cellBound
  fibonacci : frames.fibonacci ≤ cellBound
  sieve : frames.sieve ≤ cellBound
  reserve : frames.reserve ≤ cellBound

/-- The memory that a compiled module begins with. -/
def firstMemory (config : Config) : Memory :=
  ⟨extendBytes .empty 0 (config.initialPages.toNat * pageSize),
    min Module.pageSupply config.maxPages.toNat, false⟩

/-- The globals of a compiled module. -/
def globalWords (constant : Binary64) (counter snapshot : Int64) : Array Word :=
  #[.f64 constant.bits, .i64 counter.toUInt64, .i64 snapshot.toUInt64]

/-- The store that a compiled module begins with. -/
def firstStore (config : Config) : Store HostState :=
  ⟨firstMemory config, #[], globalWords config.globalConst 0 0, #[], ⟨#[], #[]⟩, .new⟩

/-- The instance of a compiled module. -/
def instanceOf (config : Config) (frames : Frames) : LinkedModule :=
  ⟨frames.program, functionTypes, exports, firstStore config⟩

theorem size_firstMemory (config : Config) :
    (firstMemory config).size = config.initialPages.toNat * pageSize := by
  rw [Memory.size, firstMemory, size_extendBytes]
  exact Nat.zero_add _

theorem maxPages_firstMemory (valid : config.IsValid) :
    (firstMemory config).maxPages = config.maxPages.toNat :=
  Nat.min_eq_right valid.max_le

theorem firstMemory_declared (valid : config.IsValid) : Declared (firstMemory config) := by
  have pages : (firstMemory config).pages = config.initialPages.toNat := by
    rw [Memory.pages, size_firstMemory, Nat.mul_div_cancel _ (by decide)]
  refine ⟨rfl, ?_, ?_, ?_, ?_⟩
  · rw [pages, size_firstMemory]
  · exact pages ▸ valid.initial_pos
  · rw [pages, maxPages_firstMemory valid]
    exact valid.initial_le
  · exact (maxPages_firstMemory valid).trans_le valid.max_le

theorem firstMemory?_eq (valid : config.IsValid) :
    Module.firstMemory? (.plain config.initialPages config.maxPages) =
      some (firstMemory config) := by
  have supplied : config.initialPages.toNat ≤ Module.pageSupply :=
    valid.initial_le.trans valid.max_le
  simp only [Module.firstMemory?, MemoryType.plain, supplied, if_true]
  rfl

theorem firstStore?_eq (valid : config.IsValid) :
    (kernelModule config).firstStore? HostState.new = some (firstStore config) := by
  have memories : (kernelModule config).memories.mapM Module.firstMemory? =
      some [firstMemory config] := by
    change [MemoryType.plain _ _].mapM Module.firstMemory? = _
    rw [List.mapM_cons, firstMemory?_eq valid]
    rfl
  have globals : (kernelModule config).globals.mapM (fun item => item.value.value?) =
      some (globalWords config.globalConst 0 0).toList := rfl
  simp only [Module.firstStore?, memories, globals, Option.bind_eq_bind, Option.bind_some]
  rfl

theorem routine?_eq (function : Function) (type : FuncType) (words : List Word) {cells : ℕ}
    (typed : types[function.type.toNat]? = some type)
    (locals : Module.firstLocals? function.body = some words)
    (framed : frameSize? ⟨types, functionTypes, (kernelModule config).fixedGlobals,
      [.plain config.initialPages config.maxPages],
      type.params.length + Body.localCount function.body.locals, type.results.length⟩
        function.body.code = some cells) :
    (kernelModule config).routine? functionTypes function =
      some ⟨type, words, function.body.code, cells⟩ :=
  Module.routine?_of_layout typed locals framed

/-- The frames of the compiled functions. -/
theorem exists_routines (config : Config) : ∃ frames : Frames, frames.AreSmall ∧
    (kernelModule config).functions.mapM ((kernelModule config).routine? functionTypes) =
      some frames.program.routines.toList := by
  obtain ⟨fixed, same⟩ : ∃ fixed, fixed = (kernelModule config).fixedGlobals := ⟨_, rfl⟩
  have constants : fixed = [some (.f64 config.globalConst.bits), none, none] := same
  obtain ⟨memories, declared⟩ :
    ∃ memories, memories = [MemoryType.plain config.initialPages config.maxPages] := ⟨_, rfl⟩
  obtain ⟨updateMemory, laid₁, le₁⟩ := frameSize?_le (updateMemory_layout fixed
    config.initialPages config.maxPages) (by decide)
  obtain ⟨invokeCallback, laid₂, le₂⟩ := frameSize?_le (invokeCallback_layout memories
    (some (.f64 config.globalConst.bits))) (by decide)
  obtain ⟨most, constantCount, most_le, constants_le, layout⟩ :=
    fibonacci_layout fixed memories
  obtain ⟨fibonacci, laid₃, le₃⟩ := frameSize?_le layout (by rw [cellBound]; omega)
  obtain ⟨sieve, laid₄, le₄⟩ := frameSize?_le
    (sieve_layout fixed memories) (by decide)
  obtain ⟨reserve, laid₅, le₅⟩ := frameSize?_le
    (reserve_layout fixed memories) (by decide)
  rw [← constants] at laid₂
  rw [same, declared] at laid₂ laid₃ laid₄ laid₅
  rw [same] at laid₁
  refine ⟨⟨updateMemory, invokeCallback, fibonacci, sieve, reserve⟩,
    ⟨le₁, le₂, le₃, le₄, le₅⟩, ?_⟩
  change functions.mapM _ = _
  simp only [functions, List.mapM_cons, List.mapM_nil, Option.bind_eq_bind]
  rw [routine?_eq ⟨_, Compiled.updateMemory⟩ plainType [] rfl rfl laid₁,
    routine?_eq ⟨_, Compiled.invokeCallback⟩ plainType [] rfl rfl laid₂,
    routine?_eq ⟨_, Compiled.fibonacci⟩ wordType [.i64 0, .i32 0] rfl rfl laid₃,
    routine?_eq ⟨_, Compiled.sieve⟩ sieveType (List.replicate 7 (.i64 0)) rfl rfl laid₄,
    routine?_eq ⟨_, Compiled.reserve⟩ reserveType [.i64 0] rfl rfl laid₅]
  rfl

theorem linker_eq : HostState.linker importModule abortImport = some HostState.abortFunction ∧
    HostState.linker importModule callbackImport = some HostState.callbackFunction := by
  have other : callbackImport ≠ abortImport := by decide
  simp [HostState.linker, other]

theorem imports_linked (config : Config) :
    (kernelModule config).imports.mapM ((kernelModule config).link? HostState.linker) =
      some [HostState.abortFunction, HostState.callbackFunction] := by
  change imports.mapM _ = _
  simp only [imports, List.mapM_cons, List.mapM_nil, Module.link?, linker_eq, Option.bind_eq_bind,
    Option.bind_some]
  rfl

/-- The module of a valid configuration is linked and started. -/
theorem instantiate?_eq (valid : config.IsValid) : ∃ frames : Frames, frames.AreSmall ∧
    (kernelModule config).instantiate? HostState.linker .new =
      some (instanceOf config frames) := by
  obtain ⟨frames, small, routines⟩ := exists_routines config
  have types : (kernelModule config).functionTypes? = some functionTypes := rfl
  have loaded : (kernelModule config).load? HostState.linker .new =
      some (instanceOf config frames) := by
    simp only [Module.load?, types, imports_linked, routines, firstStore?_eq valid,
      Option.bind_eq_bind, Option.bind_some]
    rfl
  refine ⟨frames, small, ?_⟩
  simp only [Module.instantiate?, kernelModule_isValid valid, loaded, Option.bind_eq_bind,
    Option.bind_some]
  rfl

/-- The index of the function behind an entry point of a compiled module. -/
def entryIndex : EntryPoint → UInt32
  | .fibonacci => fibonacciIndex
  | .sieve => sieveIndex
  | .updateMemory => updateMemoryIndex
  | .invokeCallback => invokeCallbackIndex

end Compiled

theorem LinkedModule.entry?_eq (live : LinkedModule) (exports : live.exports = Compiled.exports)
    (types : live.functionTypes = Compiled.functionTypes) (entry : EntryPoint) :
    live.entry? entry = some (entryIndex entry) := by
  simp only [LinkedModule.entry?, Instance.function?, Instance.export?, exports, types]
  cases entry <;> decide

/-- What is compiled for a valid configuration is linked and started. -/
theorem LinkedModule.ofModule?_encode {config : Config} (valid : config.IsValid) :
    ∃ frames : Frames, frames.AreSmall ∧
      LinkedModule.ofModule? (kernelModule config).encode = some (instanceOf config frames) := by
  obtain ⟨frames, small, instantiated⟩ := instantiate?_eq valid
  refine ⟨frames, small, ?_⟩
  rw [LinkedModule.ofModule?, ofSource?_encode valid]
  exact instantiated

end TableKernels
