import TableKernels.Hosted.Kernel
import TableKernels.Proofs.Configured

/-!
# Modules that a host admits

A host admits a module once its own configuration is valid, the module can be looked at and linked,
and every export is in place. The kernel that it makes then has seen nothing but its own note in the
journal.
-/

namespace TableKernels

open Wasm

/-- A function that is found under a name has the type that was asked for. -/
theorem Wasm.Instance.type_of_function? {Host : Type} {live : Instance Host} {name : String}
    {type : FuncType} {index : UInt32} (found : live.function? name type = some index) :
    live.functionTypes[index.toNat]? = some type := by
  rw [function?] at found
  split at found
  · split at found
    · next same =>
      cases found
      exact same
    · cases found
  · cases found

namespace Surface

variable {live : LinkedModule} {surface : Surface} {name : String} {index : UInt32}

theorem requireGlobal_eq_ok : requireGlobal live name = .ok index ↔
    Instance.global? live name = some index := by
  rw [requireGlobal]
  cases Instance.global? live name with
  | none => simp only [reduceCtorEq]
  | some found => rw [Except.ok.injEq, Option.some.injEq]

theorem requireFunction_eq_ok {entry : EntryPoint} : requireFunction live entry = .ok index ↔
    LinkedModule.entry? live entry = some index := by
  rw [requireFunction]
  cases LinkedModule.entry? live entry with
  | none => simp only [reduceCtorEq]
  | some found => rw [Except.ok.injEq, Option.some.injEq]

/-- The parts of a surface are where the exports of an instance say. -/
structure IsOf (live : LinkedModule) (surface : Surface) : Prop where
  memory : Instance.memory? live memoryName = some surface.memory
  function : ∀ entry, LinkedModule.entry? live entry = some (surface.function entry)
  constant : Instance.global? live constantName = some surface.constant
  counter : Instance.global? live counterName = some surface.counter
  snapshot : Instance.global? live snapshotName = some surface.snapshot

/-- The surface that is found has its parts where the exports say, and there is no other. -/
theorem ofLinked_eq_ok : ofLinked live = .ok surface ↔ surface.IsOf live := by
  constructor
  · intro found
    unfold ofLinked at found
    split at found
    case h_2 => cases found
    case h_1 memory exported =>
    obtain ⟨fibonacci, required₁, found⟩ := exists_of_bind_eq_ok found
    obtain ⟨sieve, required₂, found⟩ := exists_of_bind_eq_ok found
    obtain ⟨updateMemory, required₃, found⟩ := exists_of_bind_eq_ok found
    obtain ⟨invokeCallback, required₄, found⟩ := exists_of_bind_eq_ok found
    obtain ⟨constant, required₅, found⟩ := exists_of_bind_eq_ok found
    obtain ⟨counter, required₆, found⟩ := exists_of_bind_eq_ok found
    obtain ⟨snapshot, required₇, found⟩ := exists_of_bind_eq_ok found
    cases found
    refine ⟨exported, fun entry => ?_, requireGlobal_eq_ok.mp required₅,
      requireGlobal_eq_ok.mp required₆, requireGlobal_eq_ok.mp required₇⟩
    cases entry with
    | fibonacci => exact requireFunction_eq_ok.mp required₁
    | sieve => exact requireFunction_eq_ok.mp required₂
    | updateMemory => exact requireFunction_eq_ok.mp required₃
    | invokeCallback => exact requireFunction_eq_ok.mp required₄
  · intro isOf
    obtain ⟨memory, function, constant, counter, snapshot⟩ := surface
    have functions (entry : EntryPoint) := requireFunction_eq_ok.mpr (isOf.function entry)
    have constants := requireGlobal_eq_ok.mpr isOf.constant
    have counters := requireGlobal_eq_ok.mpr isOf.counter
    have snapshots := requireGlobal_eq_ok.mpr isOf.snapshot
    simp only [ofLinked, isOf.memory, functions, constants, counters, snapshots]
    refine congrArg (fun function => Except.ok (Surface.mk memory function _ _ _)) ?_
    funext entry
    cases entry <;> rfl

end Surface

namespace HostedKernel

variable {kernel after : HostedKernel} {bytes : Bytes} {config : Config}

/-- A kernel that was just made is an instance of the module that its bytes hold. -/
structure Admits (bytes : Bytes) (config : Config) (program : Module) (kernel : HostedKernel) :
    Prop where
  source : Module.ofSource? bytes = some program
  instantiated : ∃ live, program.instantiate? HostState.linker .new = some live ∧
    ∃ host, kernel.live = Instance.withHost live host
  surface : kernel.surface.IsOf kernel.live
  snapshotTaken : kernel.snapshotTaken = false
  report : inspect bytes = .ok kernel.report
  limits : ∃ bounds, kernel.report.memory = some bounds ∧ kernel.limits = bounds.pages

/-- What a host saw of a module before it admitted it. -/
theorem exists_of_ofModule (hosted : ofModule bytes config = .ok kernel) :
    ∃ live surface report bounds, config.IsValid ∧ inspect bytes = .ok report ∧
      report.memory = some bounds ∧ LinkedModule.ofModule? bytes = some live ∧
        surface.IsOf live ∧
          kernel = log ⟨config, report, bounds.pages, live, surface, false⟩ .info
            (instantiatedText report bounds.pages) := by
  unfold ofModule at hosted
  obtain ⟨_, valid, hosted⟩ := exists_of_bind_eq_ok hosted
  obtain ⟨report, inspected, hosted⟩ := exists_of_bind_eq_ok hosted
  have looked : inspect bytes = .ok report := by
    cases looked : inspect bytes with
    | error fault =>
      rw [looked] at inspected
      cases inspected
    | ok other =>
      rw [looked] at inspected
      cases inspected
      rfl
  split at hosted
  case h_2 => cases hosted
  case h_1 bounds declared =>
  split at hosted
  case h_2 => cases hosted
  case h_1 live linked =>
  obtain ⟨surface, found, hosted⟩ := exists_of_bind_eq_ok hosted
  refine ⟨live, surface, report, bounds, ?_, looked, declared, linked,
    Surface.ofLinked_eq_ok.mp found, (Except.ok.inj hosted).symm⟩
  cases checked : config.validate with
  | error fault =>
    rw [checked] at valid
    cases valid
  | ok => exact Config.validate_eq_ok.mp checked

theorem hostConfig_valid (hosted : ofModule bytes config = .ok kernel) : config.IsValid := by
  obtain ⟨_, _, _, _, valid, _⟩ := exists_of_ofModule hosted
  exact valid

theorem admits_of_ofModule (hosted : ofModule bytes config = .ok kernel) :
    ∃ program, kernel.Admits bytes config program := by
  obtain ⟨live, surface, report, bounds, _, looked, declared, linked, isOf, rfl⟩ :=
    exists_of_ofModule hosted
  obtain ⟨program, source, instantiated⟩ := Option.bind_eq_some_iff.mp linked
  exact ⟨program, source, ⟨live, instantiated, _, rfl⟩,
    ⟨isOf.memory, isOf.function, isOf.constant, isOf.counter, isOf.snapshot⟩, rfl, looked,
    bounds, declared, rfl⟩

/-- A module that is looked at, instantiated and has its exports in place is hosted. -/
theorem ofModule_eq_ok {live : LinkedModule} {surface : Surface} (valid : config.IsValid)
    (inspected : ((inspect bytes).toOption.any fun report => report.memory.isSome) = true)
    (linked : LinkedModule.ofModule? bytes = some live) (isOf : surface.IsOf live) :
    ∃ report limits, ofModule bytes config = .ok (log ⟨config, report, limits, live, surface, false⟩
      .info (instantiatedText report limits)) := by
  cases looked : inspect bytes with
  | error fault =>
    rw [looked] at inspected
    cases inspected
  | ok report =>
    rw [looked] at inspected
    obtain ⟨bounds, memory⟩ := Option.isSome_iff_exists.mp inspected
    have checked := Config.validate_eq_ok.mpr valid
    have found := Surface.ofLinked_eq_ok.mpr isOf
    refine ⟨report, bounds.pages, ?_⟩
    simp only [ofModule, checked, looked, linked, found, memory, Except.mapError, Bind.bind,
      Except.bind, Pure.pure, Except.pure]

end HostedKernel

end TableKernels
