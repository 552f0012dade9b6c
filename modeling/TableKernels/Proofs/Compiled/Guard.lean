import TableKernels.Compiled.Module
import TableKernels.Hosted.State
import TableKernels.Proofs.Memory.Bytes
import TableKernels.Proofs.Wasm.Logic
import TableKernels.Proofs.Wasm.Numbers

/-!
# Guards of compiled code

A guard whose condition holds reports its diagnostic to the host and traps, and nothing else has
changed. `reserve` ends so when the table does not fit the declared memory. Otherwise it grows
memory to the pages of the table if it has fewer, and changes no byte.
-/

namespace TableKernels.Compiled

open Wasm

/-- The cells that the calls of the compiled functions take. -/
structure Frames where
  updateMemory : ℕ
  invokeCallback : ℕ
  fibonacci : ℕ
  sieve : ℕ
  reserve : ℕ

/-- The functions of a compiled instance, those of the host first. -/
def Frames.program (frames : Frames) : Program HostState where
  imports := #[HostState.abortFunction, HostState.callbackFunction]
  routines :=
    #[⟨plainType, [], Compiled.updateMemory.code, frames.updateMemory⟩,
      ⟨plainType, [], Compiled.invokeCallback.code, frames.invokeCallback⟩,
      ⟨wordType, [.i64 0, .i32 0], Compiled.fibonacci.code, frames.fibonacci⟩,
      ⟨sieveType, List.replicate 7 (.i64 0), Compiled.sieve.code, frames.sieve⟩,
      ⟨reserveType, [.i64 0], Compiled.reserve.code, frames.reserve⟩]
  types := types

/-- The store after the host was told of a diagnostic. -/
def aborted (abort : Abort) (store : Store HostState) : Store HostState :=
  { store with host := store.host.reportAbort abort }

/-! ## Reports -/

variable {Host : Type} {program : Program Host} {abort : HostFunction Host} {frames : Frames}
  {room : Headroom} {stack : List Word} {locals : Array Word} {store : Store Host}
  {rest : List Instr}

/-- A program whose first import takes four integers and comes back without a result. -/
structure Reports (program : Program Host) (abort : HostFunction Host) : Prop where
  imported : program.imports[abortIndex.toNat]? = some abort
  type : abort.type = ⟨[.i32, .i32, .i32, .i32], []⟩
  returns : ∀ words host, (abort.run words host).1 = .ok []

/-- The store after a host function was given a diagnostic. -/
def told (abort : HostFunction Host) (diagnostic : Abort) (store : Store Host) : Store Host :=
  { store with
    host := (abort.run [.i32 diagnostic.code.toUInt32, .i32 diagnostic.file.toUInt32,
      .i32 diagnostic.line.toUInt32, .i32 diagnostic.column.toUInt32] store.host).2 }

theorem Frames.reports (frames : Frames) : Reports frames.program HostState.abortFunction where
  imported := rfl
  type := rfl
  returns := by
    intro words host
    unfold HostState.abortFunction
    simp only
    split <;> rfl

theorem get_passes {index : UInt32} {word : Word}
    (held : locals[index.toNat]? = some word) :
    Passes program room 1 [get index] stack locals store (word :: stack) locals store := by
  refine Passes.op ?_
  simp only [Op.step, held]

/-- A guard whose condition holds reports once and traps. -/
theorem abortIf_told (reports : Reports program abort) {condition : UInt32}
    {code site line : Int32} {index : UInt32} {value : UInt64} (holds : condition ≠ 0)
    (held : locals[index.toNat]? = some (.i64 value)) (lent : 4 ≤ room.cells) :
    Ends program room 8 (abortIf code site line index ++ rest) (.i32 condition :: stack)
      locals store
      (.trap .unreachable (told abort ⟨code, site, line, value.toUInt32.toInt32⟩ store)) := by
  refine Ends.ifThen_final holds _ _ ?_ trivial
  have arguments : Passes program room (3 + (1 + 1))
      [const32 code, const32 site, const32 line, get index, apply .i32WrapI64] [] locals store
      [.i32 value.toUInt32, .i32 line.toUInt32, .i32 site.toUInt32, .i32 code.toUInt32]
      locals store := by
    have constants : Passes program room 3 [const32 code, const32 site, const32 line] []
        locals store [.i32 line.toUInt32, .i32 site.toUInt32, .i32 code.toUInt32] locals store :=
      Passes.of_straight rfl rfl
    exact constants.append (Passes.cons (get_passes held) (Passes.of_straight rfl rfl))
  have report : Passes program room 1 [.call abortIndex]
      [.i32 value.toUInt32, .i32 line.toUInt32, .i32 site.toUInt32, .i32 code.toUInt32] locals
      store [] locals (told abort ⟨code, site, line, value.toUInt32.toInt32⟩ store) := by
    refine Passes.callImport _ abort [] reports.imported ?_ ?_
      (Prod.ext (reports.returns _ store.host) rfl)
    · rw [reports.type]
      rfl
    · simpa [Headroom.canLend, reports.type] using lent
  have stop : Ends program room 1 [.unreachable] [] locals
      (told abort ⟨code, site, line, value.toUInt32.toInt32⟩ store)
      (.trap .unreachable (told abort ⟨code, site, line, value.toUInt32.toInt32⟩ store)) :=
    Ends.of_exec fun _ => rfl
  exact (arguments.append report).then_ends stop

theorem abortIf_passes {code site line : Int32} {index : UInt32} :
    Passes program room 1 (abortIf code site line index) (.i32 0 :: stack) locals store
      stack locals store :=
  Passes.ifThen_zero _

/-! ## Arguments -/

/-- The check that a value fails, of the two that compiled code makes. -/
def refusal? (greatest value : Int64) : Option ArgumentCheck :=
  if value < 0 then some .negative
  else if greatest < value then some .exceedsIndexRange
  else none

theorem refusal?_toInt (greatest value : Int64) : refusal? greatest value =
    if value.toInt < 0 then some .negative
    else if greatest.toInt < value.toInt then some .exceedsIndexRange
    else none := by
  simp only [refusal?, Int64.lt_iff_toInt_lt]
  rfl

theorem refusal?_eq_none_iff {greatest value : Int64} :
    refusal? greatest value = none ↔ 0 ≤ value.toInt ∧ value.toInt ≤ greatest.toInt := by
  rw [refusal?_toInt]
  split
  · next below => simp [Int.not_le.mpr below]
  · next nonneg =>
    split
    · next above => simp [Int.not_le.mpr above]
    · next le => simp [Int.not_lt.mp nonneg, Int.not_lt.mp le]

/-- The diagnostic of a refused argument. -/
def argumentAbort (entry : EntryPoint) (check : ArgumentCheck) (value : UInt64) : Abort :=
  ⟨AbortCode.invalidArgument.number, entry.site, check.line, value.toUInt32.toInt32⟩

variable {param : UInt32} {value : UInt64} {entry : EntryPoint} {greatest : Int64}

theorem negative_test (program : Program Host) (room : Headroom) (stack : List Word)
    (store : Store Host) (held : locals[param.toNat]? = some (.i64 value)) :
    Passes program room (1 + 2) [get param, const64 0, apply .i64LtS] stack locals store
      (.i32 (truthOf (value.toInt64 < 0)) :: stack) locals store := by
  rw [← truth_decide]
  exact Passes.cons (get_passes held) (Passes.of_straight rfl rfl)

theorem excess_test (program : Program Host) (room : Headroom) (stack : List Word)
    (store : Store Host) (greatest : Int64) (held : locals[param.toNat]? = some (.i64 value)) :
    Passes program room (1 + 2) [get param, const64 greatest, apply .i64GtS] stack locals
      store (.i32 (truthOf (greatest < value.toInt64)) :: stack) locals store := by
  rw [← truth_decide]
  exact Passes.cons (get_passes held) (Passes.of_straight rfl rfl)

theorem argumentGuard_passes (value : UInt64) (held : locals[param.toNat]? = some (.i64 value))
    (accepted : refusal? greatest value.toInt64 = none) :
    Passes program room 8 (argumentGuard param entry greatest) stack locals store stack
      locals store := by
  simp only [refusal?] at accepted
  split at accepted
  · cases accepted
  · next nonneg =>
    split at accepted
    · cases accepted
    · next le =>
      have negative := negative_test program room stack store held
      have excess := excess_test program room stack store greatest held
      rw [truthOf_eq_zero nonneg] at negative
      rw [truthOf_eq_zero le] at excess
      exact ((negative.append abortIf_passes).append excess).append abortIf_passes

theorem argumentGuard_told (reports : Reports program abort) {check : ArgumentCheck}
    (held : locals[param.toNat]? = some (.i64 value)) (lent : 4 ≤ room.cells)
    (refused : refusal? greatest value.toInt64 = some check) :
    Ends program room 15 (argumentGuard param entry greatest ++ rest) stack locals store
      (.trap .unreachable (told abort (argumentAbort entry check value) store)) := by
  have negative := negative_test program room stack store held
  have excess := excess_test program room stack store greatest held
  simp only [argumentGuard, List.append_assoc]
  simp only [refusal?] at refused
  split at refused
  · next below =>
    cases refused
    exact (negative.then_ends (abortIf_told reports (truthOf_ne_zero below) held lent)).mono
      (by decide)
  · next nonneg =>
    split at refused
    · next above =>
      cases refused
      rw [truthOf_eq_zero nonneg] at negative
      exact (negative.then_ends (abortIf_passes.then_ends (excess.then_ends
        (abortIf_told reports (truthOf_ne_zero above) held lent)))).mono (by decide)
    · cases refused

/-- A refused argument of a compiled function is reported to its host. -/
theorem argumentGuard_trap {store : Store HostState} {check : ArgumentCheck}
    (held : locals[param.toNat]? = some (.i64 value)) (lent : 4 ≤ room.cells)
    (refused : refusal? greatest value.toInt64 = some check) :
    Ends frames.program room 15 (argumentGuard param entry greatest ++ rest) stack locals store
      (.trap .unreachable (aborted (argumentAbort entry check value) store)) :=
  argumentGuard_told frames.reports held lent refused

end TableKernels.Compiled
