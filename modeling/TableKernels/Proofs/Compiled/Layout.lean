import TableKernels.Compiled.Module
import TableKernels.Proofs.Configured
import TableKernels.Wasm.Instance

/-!
# Frames of the compiled functions

Each compiled function is laid out in a small frame, whatever the configuration. Only `fibonacci`
and `update_memory` access memory at constant addresses: under a limit of one page the second seed
of `fibonacci` lies beyond all memory, so that the code behind it is never reached and takes no
cells.
-/

namespace TableKernels.Compiled

open Wasm

variable {frame : FrameScope} {code rest : List Instr} {plan plan' : Plan} {labels : List ℕ}

/-- The types of all functions of the module. -/
def functionTypes : List FuncType :=
  [abortType, wordType, plainType, plainType, wordType, sieveType, reserveType]

/-- The cells that a call of a compiled function may take at most. -/
def cellBound : ℕ := 100

/-- What matters of a plan in the end: the operands that wait, the former values that are kept and
the number of constants. -/
def outcome (laid : Plan × Bool) : ℕ × ℕ × ℕ := (laid.1.most, laid.1.kept, laid.1.constants.length)

theorem countDistinct_le (numbers : List ℕ) : countDistinct numbers ≤ numbers.length :=
  Std.HashSet.size_ofList_le

theorem length_use (plan : Plan) (carried : Word → Bool) (places : List Place) :
    (plan.use carried places).constants.length ≤ plan.constants.length + places.length := by
  have filtered := List.length_filter_le (!carried ·) (places.filterMap (·.word?))
  have words := List.length_filterMap_le (·.word?) places
  simp only [Plan.use, Plan.useConstants, List.length_append, List.length_map]
  omega

theorem length_handOver (plan : Plan) (frame : FrameScope) :
    (plan.handOver frame).constants.length ≤ plan.constants.length + frame.resultCount := by
  have taken := List.length_take_le frame.resultCount plan.stack
  simp only [Plan.handOver, Plan.copy]
  split
  · exact (length_use _ _ _).trans (by omega)
  · exact (length_use _ _ _).trans (by omega)

theorem handOver_most (plan : Plan) (frame : FrameScope) :
    (plan.handOver frame).most = plan.most ∧ (plan.handOver frame).kept = plan.kept := by
  simp only [Plan.handOver, Plan.copy]
  split <;> exact ⟨rfl, rfl⟩

/-- A function that is laid out with few of everything takes few cells. -/
theorem frameSize?_le {types functions : List FuncType} {fixed : List (Option Word)}
    {memories : List MemoryType} {localCount resultCount most kept constants : ℕ}
    (laid : ((FrameScope.mk types functions fixed memories localCount resultCount).code? [] .empty
      code).map outcome = some (most, kept, constants))
    (few : localCount + most + kept + constants + resultCount ≤ cellBound) :
    ∃ cells, frameSize? ⟨types, functions, fixed, memories, localCount, resultCount⟩ code =
      some cells ∧ cells ≤ cellBound := by
  obtain ⟨⟨plan, reached⟩, run, view⟩ := Option.map_eq_some_iff.mp laid
  obtain ⟨rfl, rfl, rfl⟩ : plan.most = most ∧ plan.kept = kept ∧
      plan.constants.length = constants := by
    simpa [outcome] using view
  obtain ⟨frame, defined⟩ : ∃ frame, frame =
    FrameScope.mk types functions fixed memories localCount resultCount := ⟨_, rfl⟩
  have results : frame.resultCount = resultCount := by rw [defined]
  obtain ⟨last, same⟩ : ∃ last, last = if reached then plan.handOver frame else plan := ⟨_, rfl⟩
  have final : last.constants.length ≤ plan.constants.length + resultCount ∧
      last.most = plan.most ∧ last.kept = plan.kept := by
    subst same
    cases reached
    · exact ⟨Nat.le_add_right _ _, rfl, rfl⟩
    · exact ⟨(length_handOver plan frame).trans_eq (by rw [results]), handOver_most plan frame⟩
  have distinct := countDistinct_le last.constants
  simp only [cellBound] at few ⊢
  rw [← defined] at run ⊢
  have roomy : ¬ Plan.empty.room frame = 0 := by
    simp only [Plan.room, Plan.empty, cellLimit, defined]
    omega
  have short : ¬ constantLimit < countDistinct last.constants := by
    simp only [constantLimit]
    omega
  refine ⟨localCount + last.most + last.kept + countDistinct last.constants, ?_, by omega⟩
  simp only [frameSize?, roomy, if_false, run, Option.bind_eq_bind, Option.bind_some, ← same, short]
  rw [defined]
  rfl

theorem code?_append (first : frame.code? labels plan code = some (plan', true)) :
    frame.code? labels plan (code ++ rest) = frame.code? labels plan' rest := by
  induction code generalizing plan with
  | nil =>
    cases first
    rfl
  | cons instr code hypothesis =>
    rw [FrameScope.code?] at first
    rw [List.cons_append, FrameScope.code?]
    split at first
    · exact hypothesis first
    · next ended => exact absurd first (ended plan')

variable {fixed : List (Option Word)} {memories : List MemoryType}

theorem sieve_layout (fixed : List (Option Word)) (memories : List MemoryType) :
    ((FrameScope.mk types functionTypes fixed memories 8 1).code? [] .empty
      Compiled.sieve.code).map outcome = some (2, 0, 18) := by
  cbv

theorem reserve_layout (fixed : List (Option Word)) (memories : List MemoryType) :
    ((FrameScope.mk types functionTypes fixed memories 3 0).code? [] .empty
      Compiled.reserve.code).map outcome = some (1, 0, 3) := by
  cbv

theorem invokeCallback_layout (memories : List MemoryType) (constant : Option Word) :
    ((FrameScope.mk types functionTypes [constant, none, none] memories 0 0).code? [] .empty
      Compiled.invokeCallback.code).map outcome = some (1, 0, 0) := by
  cbv

/-! ## Constant addresses -/

theorem isBeyond_eq {frame : FrameScope} {offset : UInt64} {base : ℕ}
    {minPages maxPages : UInt64} {alignment : UInt32}
    (memories : frame.memories = [.plain minPages maxPages])
    (narrow : base + offset.toNat ≤ 0xffffffff) :
    frame.isBeyond (.first alignment offset) base =
      decide (maxPages.toNat * pageSize < base + offset.toNat) := by
  have far : decide (0xffffffff < base + offset.toNat) = false :=
    decide_eq_false (Nat.not_lt.mpr narrow)
  rw [FrameScope.isBeyond, memories]
  change ((decide _ || decide (0xffffffff < base + offset.toNat)) = _)
  rw [far, Bool.or_false]
  rfl

theorem save?_constant (frame : FrameScope) (plan : Plan) (carried : Word → Bool) {value : Word}
    {base : UInt32} (offset : UInt64) {stack : List Place}
    (stacked : plan.stack = .constant value :: .constant (.i32 base) :: stack)
    (isCarried : carried value = true) (fits : base.toNat + offset.toNat ≤ 0xffffffff) :
    frame.save? (.first 3 offset) carried plan =
      some ({ plan with stack }, !frame.isBeyond (.first 3 offset) base.toNat) := by
  have unsigned : (Word.i32 base).unsigned = base.toNat := rfl
  have near : ¬ 0xffffffff < base.toNat + (MemoryPlace.first 3 offset).offset.toNat :=
    Nat.not_lt.mpr fits
  simp only [FrameScope.save?, Plan.pop?, stacked, Option.bind_eq_bind, Option.bind_some,
    FrameScope.access, Place.word?, unsigned, near, if_false]
  cases frame.isBeyond (.first 3 offset) base.toNat
  · simp [Plan.use, Plan.useConstants, Place.word?, isCarried]
  · rfl

theorem load?_zero (frame : FrameScope) (plan : Plan) {minPages maxPages : UInt64}
    (stack : List Place) (memories : frame.memories = [.plain minPages maxPages])
    (stacked : plan.stack = .constant (.i32 0) :: stack) :
    frame.load? (.first 3 0) plan =
      (({ plan with stack } : Plan).compute? frame).map (·, true) := by
  have within : frame.isBeyond (.first 3 0) (Word.i32 0).unsigned = false := by
    rw [show (Word.i32 0).unsigned = 0 from rfl, isBeyond_eq memories (by decide)]
    exact decide_eq_false (Nat.not_lt.mpr (Nat.zero_le _))
  have near : ¬ 0xffffffff < (Word.i32 0).unsigned + (MemoryPlace.first 3 0).offset.toNat := by
    decide
  simp only [FrameScope.load?, Plan.pop?, stacked, Option.bind_eq_bind, Option.bind_some,
    FrameScope.access, Place.word?, within, Bool.false_eq_true, near, if_false]
  cases ({ plan with stack } : Plan).compute? frame <;> rfl

theorem updateMemory_layout (fixed : List (Option Word)) (minPages maxPages : UInt64) :
    ((FrameScope.mk types functionTypes fixed [.plain minPages maxPages] 0 0).code? [] .empty
      Compiled.updateMemory.code).map outcome = some (1, 0, 0) := by
  have load := load?_zero ⟨types, functionTypes, fixed, [.plain minPages maxPages], 0, 0⟩
    (Plan.empty.push (.constant (.i32 0))) [] rfl rfl
  have first :
      (⟨types, functionTypes, fixed, [.plain minPages maxPages], 0, 0⟩ : FrameScope).code? []
        .empty [const32 0, .op (.i64Load (.first 3 0))] =
        some ((Plan.empty.pushTemporaries 1), true) := by
    simp only [const32, FrameScope.code?, FrameScope.instr?, FrameScope.op?]
    rw [show Word.i32 (0 : Int32).toUInt32 = .i32 0 from rfl, load]
    rfl
  rw [show Compiled.updateMemory.code = [const32 0, .op (.i64Load (.first 3 0))] ++
    [.op (.globalSet snapshotIndex)] from rfl, code?_append first]
  rfl

theorem code?_seed {offset : UInt64} {value : Int64}
    (short : (Word.i64 value.toUInt64).isShort = true) (fits : 65536 + offset.toNat ≤ 0xffffffff) :
    frame.code? [] plan (const32 tableBase :: const64 value ::
      .op (.i64Store (.first 3 offset)) :: rest) =
        if frame.isBeyond (.first 3 offset) 65536 then some (plan, false)
        else frame.code? [] plan rest := by
  have save := save?_constant frame { plan with
      stack := .constant (.i64 value.toUInt64) :: .constant (.i32 65536) :: plan.stack }
    (FrameScope.isCarriedToMemory .i64) offset rfl short fits
  rw [show (65536 : UInt32).toNat = 65536 from rfl] at save
  simp only [const32, const64, FrameScope.code?, FrameScope.instr?, FrameScope.op?, Plan.push]
  rw [show tableBase.toUInt32 = 65536 from rfl, save]
  cases frame.isBeyond (.first 3 offset) 65536 <;> rfl

/-- The code of `fibonacci` before the table is seeded. -/
def fibonacciFront : List Instr :=
  argumentGuard 0 .fibonacci fibonacciBound ++
    [get 0, const64 2, apply .i64Add, const64 8, apply .i64Mul,
      const32 EntryPoint.fibonacci.site, .call reserveIndex]

/-- The code of `fibonacci` after the table is seeded. -/
def fibonacciBack : List Instr :=
  const64 2 :: set 1 :: .block [.loop fillLoop] :: wordAddress 0 ++ [.op (.i64Load (.first 3 0))]

/-- The plan of `fibonacci` before the table is seeded. -/
def fibonacciPlan : Plan := ⟨[], 0, 1, 0, 0, 0, true, [1, 1, 1, 2, 2147483645, 1, 1, 1], []⟩

theorem front_layout : (FrameScope.mk types functionTypes fixed memories 3 1).code? [] .empty
    fibonacciFront = some (fibonacciPlan, true) := by
  cbv

theorem back_layout : ((FrameScope.mk types functionTypes fixed memories 3 1).code? [] fibonacciPlan
    fibonacciBack).map outcome = some (2, 0, 10) := by
  cbv

theorem fibonacci_layout (fixed : List (Option Word)) (memories : List MemoryType) :
    ∃ most constants, most ≤ 2 ∧ constants ≤ 10 ∧
    ((FrameScope.mk types functionTypes fixed memories 3 1).code? [] .empty
      Compiled.fibonacci.code).map outcome = some (most, 0, constants) := by
  rw [show Compiled.fibonacci.code = fibonacciFront ++ (const32 tableBase :: const64 0 ::
      .op (.i64Store (.first 3 0)) :: const32 tableBase :: const64 1 ::
        .op (.i64Store (.first 3 8)) :: fibonacciBack) from rfl, code?_append front_layout,
    code?_seed (by decide) (by decide), code?_seed (by decide) (by decide)]
  split
  · exact ⟨1, 8, by decide, by decide, rfl⟩
  · split
    · exact ⟨1, 8, by decide, by decide, rfl⟩
    · exact ⟨2, 10, by decide, by decide, back_layout⟩

end TableKernels.Compiled
