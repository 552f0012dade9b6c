import TableKernels.Proofs.Compiled.Calls

/-!
# Calls do not depend on memory

What a call of `fibonacci` or `sieve` tells its caller depends on the argument and on the page limit
only. Two instances of a compiled module therefore agree, whatever their memories hold and whichever
of the admitted sizes they have. A call returns without a word to the host, or reports one
diagnostic and then traps of its own accord; it never faults in another way and always ends.
-/

namespace TableKernels

open Wasm Compiled

variable {α : Type} {config : Config} {fresh live : LinkedModule} {entry : EntryPoint}

namespace LinkedModule

/-- A call with what it left of the module. -/
abbrev Called : Type := Except LinkedFault (Option Scalar) × LinkedModule

/-- What a call comes to: the value it returned, or the diagnostic that it reported. -/
def Called.outcome (called : Called) : Except (Option Abort) (Option Scalar) :=
  called.1.mapError fun _ => called.2.store.host.lastAbort

/--
How a call may end: it returned a value and its host heard nothing, or its host heard of one
diagnostic and it trapped at an instruction that always does.
-/
def Called.IsClean (before : LinkedModule) (called : Called) : Prop :=
  (∃ value, called.1 = .ok (some value) ∧ called.2.store.host = before.store.host) ∨
    ∃ abort, called.1 = .error (.trap .unreachable) ∧
      called.2.store.host = before.store.host.reportAbort abort

/--
Another state of an instance: its host, its globals and the bytes of its memory are arbitrary, and
its memory has any size that the configuration admits.
-/
structure IsStateOf (config : Config) (fresh live : LinkedModule) : Prop where
  program : live.program = fresh.program
  functionTypes : live.functionTypes = fresh.functionTypes
  exports : live.exports = fresh.exports
  maxPages : live.store.memory.maxPages = fresh.store.memory.maxPages
  wide : live.store.memory.wide = fresh.store.memory.wide
  size : ∃ pages, config.initialPages.toNat ≤ pages ∧ pages ≤ config.maxPages.toNat ∧
    live.store.memory.size = pages * pageSize

end LinkedModule

theorem Scalar.ofWord?_word (scalar : Scalar) : ofWord? scalar.word = some scalar := by
  cases scalar <;> rfl

/-- What a call comes to that was given a verdict. -/
def Verdict.outcome (entry : EntryPoint) (argument : Int64) (scalar : α → Scalar) :
    Verdict α → Except (Option Abort) (Option Scalar)
  | refused check => .error (some (argumentAbort entry check argument.toUInt64))
  | starved bytes => .error (some (tableAbort entry.site bytes))
  | fixed answer | tabled _ answer => .ok (some (scalar answer))

namespace LinkedModule

/-- A call that settles as a verdict says is clean and comes to what the verdict says. -/
theorem call_of_settles {argument : Int64} {scalar : α → Scalar} {verdict : Verdict α}
    {index : UInt32} (found : live.entry? entry = some index)
    (settles : Settles entry argument (fun answer => (scalar answer).word) live.store verdict
      (live.program.invoke index [.i64 argument.toUInt64] live.store)) :
    Called.outcome (LinkedModule.call entry [.i64 argument] live) =
        verdict.outcome entry argument scalar ∧
      Called.IsClean live (LinkedModule.call entry [.i64 argument] live) := by
  have lowered : [Scalar.i64 argument].map Scalar.word = [.i64 argument.toUInt64] := rfl
  simp only [LinkedModule.call, found, lowered]
  generalize live.program.invoke index [.i64 argument.toUInt64] live.store = result at settles
  have head : ∀ answer, [(scalar answer).word].head?.bind Scalar.ofWord? = some (scalar answer) :=
    fun answer => (scalar answer).ofWord?_word
  cases settles with
  | refused check => exact ⟨rfl, .inr ⟨_, rfl, rfl⟩⟩
  | starved bytes => exact ⟨rfl, .inr ⟨_, rfl, rfl⟩⟩
  | fixed answer =>
    exact ⟨congrArg Except.ok (head answer), .inl ⟨_, congrArg _ (head answer), rfl⟩⟩
  | tabled bytes answer memory framed fits =>
    exact ⟨congrArg Except.ok (head answer), .inl ⟨_, congrArg _ (head answer), rfl⟩⟩

variable {frames : Frames}

theorem IsStateOf.declared (valid : config.IsValid)
    (state : IsStateOf config (instanceOf config frames) live) : Declared live.store.memory := by
  obtain ⟨pages, initial_le, le_max, size⟩ := state.size
  have maxPages : live.store.memory.maxPages = config.maxPages.toNat :=
    state.maxPages.trans (maxPages_firstMemory valid)
  have whole : live.store.memory.pages = pages := by
    rw [Memory.pages, size, Nat.mul_div_cancel _ (by decide)]
  have initial_pos := valid.initial_pos
  refine ⟨state.wide, ?_, ?_, ?_, ?_⟩
  · rw [whole, size]
  · rw [whole]
    omega
  · rw [whole, maxPages]
    exact le_max
  · rw [maxPages]
    exact valid.max_le

/-- A valid configuration is compiled and its module is linked, to an instance in a first state. -/
theorem exists_fresh (valid : config.IsValid) : ∃ bytes frames, frames.AreSmall ∧
    compile config = .ok bytes ∧
      LinkedModule.ofModule? bytes = some (instanceOf config frames) ∧
        IsStateOf config (instanceOf config frames) (instanceOf config frames) := by
  obtain ⟨frames, small, linked⟩ := LinkedModule.ofModule?_encode valid
  exact ⟨_, frames, small, compile_eq_ok.mpr ⟨valid, rfl⟩, linked, rfl, rfl, rfl, rfl, rfl,
    config.initialPages.toNat, le_rfl, valid.initial_le, size_firstMemory config⟩

/-- The verdict that decides what a call of a kernel comes to. -/
theorem call_verdict (number : NumericFunction α) (valid : config.IsValid)
    (small : frames.AreSmall) (state : IsStateOf config (instanceOf config frames) live)
    (argument : Int64) :
    Called.outcome (LinkedModule.call number.entry [.i64 argument] live) =
        (number.verdict config.maxPages.toNat argument).outcome number.entry argument
          number.scalar ∧
      Called.IsClean live (LinkedModule.call number.entry [.i64 argument] live) := by
  have declared := state.declared valid
  have found := entry?_eq _ state.exports state.functionTypes
  have program : live.program = frames.program := state.program
  have maxPages : live.store.memory.maxPages = config.maxPages.toNat :=
    state.maxPages.trans (maxPages_firstMemory valid)
  have settles := number.settles _ small declared argument
  rw [← program, maxPages] at settles
  exact call_of_settles (found number.entry) settles

/--
A valid configuration is compiled and its module is linked. Any two states of the instance, with any
memories of admitted sizes, agree on what each call of `fibonacci` and of `sieve` comes to, and each
such call returns without a word to the host or reports one diagnostic and then traps.
-/
theorem call_memory_independent (config : Config) (valid : config.validate = .ok ()) :
    ∃ bytes fresh, compile config = .ok bytes ∧ LinkedModule.ofModule? bytes = some fresh ∧
      IsStateOf config fresh fresh ∧
      ∀ first second : LinkedModule, IsStateOf config fresh first → IsStateOf config fresh second →
        ∀ entry : EntryPoint, entry.IsNumeric → ∀ argument : Int64,
          Called.outcome (LinkedModule.call entry [.i64 argument] first) =
              Called.outcome (LinkedModule.call entry [.i64 argument] second) ∧
            Called.IsClean first (LinkedModule.call entry [.i64 argument] first) ∧
            Called.IsClean second (LinkedModule.call entry [.i64 argument] second) := by
  have isValid := Config.validate_eq_ok.mp valid
  obtain ⟨frames, small, linked⟩ := LinkedModule.ofModule?_encode isValid
  refine ⟨_, _, compile_eq_ok.mpr ⟨isValid, rfl⟩, linked,
    ⟨rfl, rfl, rfl, rfl, rfl, config.initialPages.toNat, le_rfl, isValid.initial_le,
      size_firstMemory config⟩, ?_⟩
  intro first second state_first state_second entry numeric argument
  have decided {α : Type} (number : NumericFunction α) :=
    And.intro (call_verdict number isValid small state_first argument)
      (call_verdict number isValid small state_second argument)
  cases numeric with
  | fibonacci =>
    obtain ⟨of_first, of_second⟩ := decided .fibonacci
    exact ⟨of_first.1.trans of_second.1.symm, of_first.2, of_second.2⟩
  | sieve =>
    obtain ⟨of_first, of_second⟩ := decided .sieve
    exact ⟨of_first.1.trans of_second.1.symm, of_first.2, of_second.2⟩

/-- The instance with other bytes as its memory. -/
def withMemory (bytes : ByteArray) (live : LinkedModule) : LinkedModule :=
  { live with store := { live.store with memory := { live.store.memory with bytes } } }

theorem IsStateOf.withMemory {bytes : ByteArray} {pages : ℕ}
    (state : IsStateOf config fresh live) (initial_le : config.initialPages.toNat ≤ pages)
    (le_max : pages ≤ config.maxPages.toNat) (size : bytes.size = pages * pageSize) :
    IsStateOf config fresh (live.withMemory bytes) :=
  ⟨state.program, state.functionTypes, state.exports, state.maxPages, state.wide, pages,
    initial_le, le_max, size⟩

/-- The default module answers from two pages of garbage what it answers when it is fresh. -/
theorem call_memory_independent_garbage : Config.default.validate = .ok () ∧
    ∃ bytes fresh, compile .default = .ok bytes ∧ LinkedModule.ofModule? bytes = some fresh ∧
      ∃ garbage : ByteArray, IsStateOf .default fresh (fresh.withMemory garbage) ∧
        EntryPoint.IsNumeric .sieve ∧
          Called.outcome (LinkedModule.call .sieve [.i64 100] fresh) =
            Called.outcome (LinkedModule.call .sieve [.i64 100] (fresh.withMemory garbage)) := by
  have valid : Config.default.validate = .ok () := by decide
  obtain ⟨bytes, fresh, compiled, linked, state, independent⟩ :=
    call_memory_independent .default valid
  obtain ⟨garbage, defined⟩ : ∃ garbage, garbage = extendBytes .empty 255 (2 * pageSize) :=
    ⟨_, rfl⟩
  have size : garbage.size = 2 * pageSize := by
    rw [defined, size_extendBytes, ByteArray.size_empty, Nat.zero_add]
  have littered : IsStateOf .default fresh (fresh.withMemory garbage) :=
    state.withMemory (by decide) (by decide) size
  exact ⟨valid, bytes, fresh, compiled, linked, garbage, littered, .sieve,
    (independent fresh _ state littered .sieve .sieve 100).1⟩

end LinkedModule

end TableKernels
