import TableKernels.Proofs.Compiled.Calls
import TableKernels.Proofs.Hosted.Moves

/-!
# Modules made by hand

A small module with every export that a host asks for. Its entry points do next to nothing; what its
counter holds at first, and what `update_memory` does, are left open. It shows what a host admits
beside compiled modules.
-/

namespace TableKernels

open Wasm Compiled

namespace HandMade

/-- The types of such a module. -/
def types : List FuncType := [wordType, plainType, sieveType]

/-- The functions whose code is the same in all of them. -/
def otherFunctions : List Function :=
  [⟨1, ⟨[], []⟩⟩, ⟨0, ⟨[], [.op (.localGet 0)]⟩⟩, ⟨2, ⟨[], [.op (.i32Const 0)]⟩⟩]

/-- Every export that a host asks for. -/
def exports : List Export :=
  [⟨constantName, .global, 0⟩, ⟨counterName, .global, 1⟩, ⟨snapshotName, .global, 2⟩,
    ⟨EntryPoint.updateMemory.name, .func, 1⟩, ⟨EntryPoint.invokeCallback.name, .func, 2⟩,
    ⟨EntryPoint.fibonacci.name, .func, 3⟩, ⟨EntryPoint.sieve.name, .func, 4⟩,
    ⟨memoryName, .memory, 0⟩]

end HandMade

/-- A module whose counter begins with a word and whose `update_memory` runs some code. -/
def handMade (counter : Word) (update : List Instr) : Module where
  types := HandMade.types
  imports := [⟨importModule, callbackImport, .func 0⟩]
  functions := ⟨1, ⟨[], update⟩⟩ :: HandMade.otherFunctions
  tables := []
  memories := [.plain 1 1]
  globals := [⟨⟨.f64, false, false⟩, .ofWord (.f64 0)⟩,
    ⟨⟨counter.type, true, false⟩, .ofWord counter⟩, ⟨⟨.i64, true, false⟩, .ofWord (.i64 0)⟩]
  exports := HandMade.exports
  start := none
  elements := []
  data := []
  customs := []

namespace HandMade

variable {config : Config} {counter : Word} {update : List Instr}

/-- The types of the functions, the imported one first. -/
def functionTypes : List FuncType := [wordType, plainType, plainType, wordType, sieveType]

/-- The values of the globals that never change. -/
def fixed : List (Option Word) := [some (.f64 0), none, none]

/-- The functions, with the cells that their calls take. -/
def program (update : List Instr) (cells : EntryPoint → ℕ) : Program HostState where
  imports := #[HostState.callbackFunction]
  routines := #[⟨plainType, [], update, cells .updateMemory⟩,
    ⟨plainType, [], [], cells .invokeCallback⟩,
    ⟨wordType, [], [.op (.localGet 0)], cells .fibonacci⟩,
    ⟨sieveType, [], [.op (.i32Const 0)], cells .sieve⟩]
  types := types

/-- The store that such a module begins with. -/
def firstStore (counter : Word) : Store HostState :=
  ⟨⟨extendBytes .empty 0 pageSize, 1, false⟩, #[], #[.f64 0, counter, .i64 0], #[], ⟨#[], #[]⟩,
    .new⟩

/-- The instance of such a module. -/
def instanceOf (counter : Word) (update : List Instr) (cells : EntryPoint → ℕ) : LinkedModule :=
  ⟨program update cells, functionTypes, exports, firstStore counter⟩

/-- Where such a module exports what a host needs. -/
def surface : Surface where
  memory := 0
  function
    | .fibonacci => 3
    | .sieve => 4
    | .updateMemory => 1
    | .invokeCallback => 2
  constant := 0
  counter := 1
  snapshot := 2

/-- What is checked of such a module before it is linked. -/
structure IsSound (counter : Word) (update : List Instr) : Prop where
  writable : areWritable update = true
  dataless : usesData update = false
  short : (handMade counter update).encode.length < 2 ^ 32
  valid : (handMade counter update).isValid = true
  inspected : ((inspect (handMade counter update).encode).toOption.any fun report =>
    report.memory.isSome) = true
  /-- `update_memory` takes few cells. -/
  laid : ∃ most kept constants, most + kept + constants ≤ cellBound ∧
    ((FrameScope.mk types functionTypes fixed [.plain 1 1] 0 0).code? [] .empty update).map
      outcome = some (most, kept, constants)

theorem IsSound.isWritable (sound : IsSound counter update) :
    (handMade counter update).IsWritable where
  types := by
    have arities : ∀ type ∈ types,
        type.params.length ≤ arityLimit ∧ type.results.length ≤ arityLimit := by
      decide
    exact fun type mem => reads_typeEntry (arities type mem).1 (arities type mem).2
  imports := List.forall_mem_singleton.mpr (reads_import rfl (by decide) (by decide))
  functions := by
    have bodies : ∀ function ∈ otherFunctions, areWritable function.body.code = true ∧
        function.body.locals.length ≤ Body.localLimit ∧
          Body.localCount function.body.locals ≤ Body.localLimit ∧
            usesData function.body.code = false := by
      decide
    refine List.forall_mem_cons.mpr
      ⟨⟨sound.writable, Nat.zero_le _, Nat.zero_le _, sound.dataless⟩, fun function mem => ?_⟩
    have ⟨code, groups, locals, data⟩ := bodies function mem
    exact ⟨code, groups, locals, data⟩
  memories := List.forall_mem_singleton.mpr (reads_memoryType (by decide) (by decide))
  exports := by
    have names : ∀ item ∈ exports, item.name.utf8ByteSize ≤ nameLimit := by
      decide
    exact fun item mem => reads_export (names item mem)
  customs := nofun
  tables := rfl
  start := rfl
  elements := rfl
  data := rfl
  short := sound.short

theorem IsSound.exists_routines (sound : IsSound counter update) :
    ∃ cells : EntryPoint → ℕ, (∀ entry, cells entry ≤ cellBound) ∧
      (handMade counter update).functions.mapM
        ((handMade counter update).routine? functionTypes) =
          some (program update cells).routines.toList := by
  obtain ⟨most, kept, constants, few, laid⟩ := sound.laid
  -- Only the code of `update_memory` varies; the frames of the others can be computed.
  have nothing : ((FrameScope.mk types functionTypes fixed [.plain 1 1] 0 0).code? [] .empty []).map
      outcome = some (0, 0, 0) := rfl
  have identity : ((FrameScope.mk types functionTypes fixed [.plain 1 1] 1 1).code? [] .empty
      [.op (.localGet 0)]).map outcome = some (0, 0, 0) := by
    cbv
  have zero : ((FrameScope.mk types functionTypes fixed [.plain 1 1] 1 1).code? [] .empty
      [.op (.i32Const 0)]).map outcome = some (0, 0, 0) := by
    cbv
  obtain ⟨updateMemory, laid₁, le₁⟩ := frameSize?_le laid (by omega)
  obtain ⟨invokeCallback, laid₂, le₂⟩ := frameSize?_le nothing (by decide)
  obtain ⟨fibonacci, laid₃, le₃⟩ := frameSize?_le identity (by decide)
  obtain ⟨sieve, laid₄, le₄⟩ := frameSize?_le zero (by decide)
  obtain ⟨cells, defined⟩ : ∃ cells : EntryPoint → ℕ, cells = fun
    | .fibonacci => fibonacci
    | .sieve => sieve
    | .updateMemory => updateMemory
    | .invokeCallback => invokeCallback := ⟨_, rfl⟩
  refine ⟨cells, fun entry => ?_, ?_⟩
  · subst defined
    cases entry <;> assumption
  · have ready (type : FuncType) {function : Function} {code : List Instr} {size : ℕ}
        (typed : types[function.type.toNat]? = some type) (body : function.body = ⟨[], code⟩)
        (framed : frameSize? ⟨types, functionTypes, fixed, [.plain 1 1], type.params.length + 0,
          type.results.length⟩ code = some size) :
        (handMade counter update).routine? functionTypes function =
          some ⟨type, [], code, size⟩ := by
      have locals : Module.firstLocals? function.body = some [] := by
        rw [body]
        rfl
      have same : (handMade counter update).routine? functionTypes function =
          some ⟨type, [], function.body.code, size⟩ :=
        Module.routine?_of_layout typed locals (by rw [body]; exact framed)
      rw [same, body]
    change (_ :: otherFunctions).mapM _ = _
    simp only [otherFunctions, List.mapM_cons, List.mapM_nil, Option.bind_eq_bind]
    rw [ready plainType rfl rfl laid₁, ready plainType rfl rfl laid₂,
      ready wordType rfl rfl laid₃, ready sieveType rfl rfl laid₄, defined]
    rfl

theorem firstStore?_eq (counter : Word) (update : List Instr) :
    (handMade counter update).firstStore? HostState.new = some (firstStore counter) := by
  have memories : (handMade counter update).memories.mapM Module.firstMemory? =
      some [(firstStore counter).memory] := rfl
  have globals : (handMade counter update).globals.mapM (fun item => item.value.value?) =
      some (firstStore counter).globals.toList := rfl
  simp only [Module.firstStore?, memories, globals, Option.bind_eq_bind, Option.bind_some]
  rfl

theorem mapM_link?_eq (counter : Word) (update : List Instr) :
    (handMade counter update).imports.mapM ((handMade counter update).link? HostState.linker) =
      some [HostState.callbackFunction] := by
  change [_].mapM _ = _
  simp only [List.mapM_cons, List.mapM_nil, Module.link?, linker_eq, Option.bind_eq_bind,
    Option.bind_some]
  rfl

theorem IsSound.instantiate?_eq (sound : IsSound counter update) :
    ∃ cells : EntryPoint → ℕ, (∀ entry, cells entry ≤ cellBound) ∧
      (handMade counter update).instantiate? HostState.linker .new =
        some (instanceOf counter update cells) := by
  obtain ⟨cells, small, routines⟩ := sound.exists_routines
  have types : (handMade counter update).functionTypes? = some functionTypes := rfl
  have loaded : (handMade counter update).load? HostState.linker .new =
      some (instanceOf counter update cells) := by
    simp only [Module.load?, types, mapM_link?_eq, routines, firstStore?_eq, Option.bind_eq_bind,
      Option.bind_some]
    rfl
  refine ⟨cells, small, ?_⟩
  simp only [Module.instantiate?, sound.valid, loaded, Option.bind_eq_bind, Option.bind_some]
  rfl

theorem entry?_eq (live : LinkedModule) (exported : live.exports = exports)
    (typed : live.functionTypes = functionTypes) (entry : EntryPoint) :
    LinkedModule.entry? live entry = some (surface.function entry) := by
  simp only [LinkedModule.entry?, Instance.function?, Instance.export?, exported, typed]
  cases entry <;> decide

theorem surface_isOf (counter : Word) (update : List Instr) (cells : EntryPoint → ℕ) :
    surface.IsOf (instanceOf counter update cells) where
  memory := by
    simp only [Instance.memory?, Instance.export?, instanceOf]
    decide
  function := entry?_eq _ rfl rfl
  constant := by
    simp only [Instance.global?, Instance.export?, instanceOf]
    decide
  counter := by
    simp only [Instance.global?, Instance.export?, instanceOf]
    decide
  snapshot := by
    simp only [Instance.global?, Instance.export?, instanceOf]
    decide

theorem IsSound.ofSource?_encode (sound : IsSound counter update) :
    Module.ofSource? (handMade counter update).encode = some (handMade counter update) := by
  have magic : bytesOfSource? (handMade counter update).encode =
      some (handMade counter update).encode :=
    bytesOfSource?_magic_append _
  rw [Module.ofSource?, magic, Option.bind_some, sound.isWritable.decode?_encode]

/-- The module is hosted. -/
theorem IsSound.exists_ofModule (sound : IsSound counter update) (valid : config.IsValid) :
    ∃ cells report limits, (∀ entry, cells entry ≤ cellBound) ∧
      HostedKernel.ofModule (handMade counter update).encode config = .ok
        (HostedKernel.log
          ⟨config, report, limits, instanceOf counter update cells, surface, false⟩ .info
            (HostedKernel.instantiatedText report limits)) := by
  obtain ⟨cells, small, instantiated⟩ := sound.instantiate?_eq
  have linked : LinkedModule.ofModule? (handMade counter update).encode =
      some (instanceOf counter update cells) := by
    rw [LinkedModule.ofModule?, sound.ofSource?_encode]
    exact instantiated
  obtain ⟨report, limits, hosted⟩ := HostedKernel.ofModule_eq_ok valid sound.inspected linked
    (surface_isOf counter update cells)
  exact ⟨cells, report, limits, small, hosted⟩

end HandMade

/-! ## Two memories -/

/-- A module with two memories, of which it exports the second. -/
def twoMemories : Module :=
  { handMade (.i64 0) [] with
    memories := [.plain 1 1, .plain 2 2]
    exports := HandMade.exports.dropLast ++ [⟨memoryName, .memory, 1⟩] }

namespace TwoMemories

theorem isSound : HandMade.IsSound (.i64 0) [] where
  writable := rfl
  dataless := rfl
  short := by cbv
  valid := by cbv
  inspected := by decide +kernel
  laid := ⟨0, 0, 0, by decide, rfl⟩

theorem isWritable : twoMemories.IsWritable :=
  { isSound.isWritable with
    memories := by
      refine List.forall_mem_cons.mpr ⟨?_, List.forall_mem_singleton.mpr ?_⟩ <;>
        exact reads_memoryType (by decide) (by decide)
    exports := by
      have names : ∀ item ∈ twoMemories.exports, item.name.utf8ByteSize ≤ nameLimit := by
        decide
      exact fun item mem => reads_export (names item mem)
    short := by cbv }

theorem ofSource?_encode : Module.ofSource? twoMemories.encode = some twoMemories := by
  have magic : bytesOfSource? twoMemories.encode = some twoMemories.encode :=
    bytesOfSource?_magic_append _
  rw [Module.ofSource?, magic, Option.bind_some, isWritable.decode?_encode]

/-- The memory that is exported, all zero. -/
def secondMemory : Memory := ⟨extendBytes .empty 0 (2 * pageSize), 2, false⟩

/-- The store that the module begins with. -/
def firstStore : Store HostState :=
  ⟨⟨extendBytes .empty 0 pageSize, 1, false⟩, #[secondMemory], #[.f64 0, .i64 0, .i64 0], #[],
    ⟨#[], #[]⟩, .new⟩

/-- The instance, with the functions as they were laid out. -/
def instanceOf (routines : List Routine) : LinkedModule :=
  ⟨⟨#[HostState.callbackFunction], routines.toArray, HandMade.types⟩, HandMade.functionTypes,
    twoMemories.exports, firstStore⟩

/-- Where the module exports what a host needs. -/
def surface : Surface := { HandMade.surface with memory := 1 }

theorem surface_isOf (routines : List Routine) : surface.IsOf (instanceOf routines) where
  memory := by
    simp only [Instance.memory?, Instance.export?, instanceOf]
    decide
  function entry := by
    have exported : (instanceOf routines).exports = twoMemories.exports := rfl
    have typed : (instanceOf routines).functionTypes = HandMade.functionTypes := rfl
    simp only [LinkedModule.entry?, Instance.function?, Instance.export?, exported, typed]
    cases entry <;> decide
  constant := by
    simp only [Instance.global?, Instance.export?, instanceOf]
    decide
  counter := by
    simp only [Instance.global?, Instance.export?, instanceOf]
    decide
  snapshot := by
    simp only [Instance.global?, Instance.export?, instanceOf]
    decide

end TwoMemories

end TableKernels
