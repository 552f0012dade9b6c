import TableKernels.Proofs.Table.Answer
import TableKernels.Proofs.Table.Fibonacci

/-!
# The kernels under watch

The running kernels check their sums, products and indices, but some steps of theirs would go wrong
without notice: the size of a table may saturate, a cast may change a number, a remainder may be
taken of a negative number, a flag to flip may lie outside the table, and a loop may have a step of
zero or no end at all. A watched kernel panics at each of these as well. Its table comes from any
supply, so that a refusal under every supply is one that comes before a table is sized.

Within the domain each watched loop runs as the running one does. All bounds come from the guards of
the loops: where a loop goes on, a square is within the limit, and the limit has a 32-bit index.
-/

namespace TableKernels

namespace Run

/-- A difference of unsigned words, which panics below zero. -/
def subWord (left right : ℕ) : Run ℕ :=
  if right ≤ left then done (left - right)
  else panicked (.text "attempt to subtract with overflow")

/-- A number as an index; a negative number would turn into another. -/
def toIndex (number : ℤ) : Run ℕ :=
  if 0 ≤ number then done number.toNat else panicked (.text "cast of a negative number")

/-- An index as a signed 32-bit word; a large index would turn into another number. -/
def toWord (index : ℕ) : Run Int32 :=
  if (Int32.ofNat index).toInt = index then done (Int32.ofNat index)
  else panicked (.text "cast of a large index")

/-- The step of a loop over a range, which must not be zero. -/
def stepBy (step : ℕ) : Run ℕ :=
  if 0 < step then done step else panicked (.text "assertion failed: step != 0")

/-- The panic of a loop that has had all its turns. -/
def outOfTurns {α : Type} : Run α := panicked (.text "out of turns")

theorem subWord_eq_done {left right : ℕ} (le : right ≤ left) :
    subWord left right = done (left - right) :=
  if_pos le

theorem toIndex_eq_done {number : ℤ} (nonneg : 0 ≤ number) :
    toIndex number = done number.toNat :=
  if_pos nonneg

theorem toWord_eq_done {index : ℕ} (lt : index < 0x80000000) :
    toWord index = done (Int32.ofNat index) :=
  if_pos (Int32.toInt_ofNat_of_lt lt)

theorem stepBy_eq_done {step : ℕ} (step_pos : 0 < step) : stepBy step = done step :=
  if_pos step_pos

end Run

namespace Table

namespace Watched

/-- The turns that a loop may take. -/
def turnLimit : ℕ := 0x80000000

/-- A table of a budget, whose size in bytes must be a word. -/
def table {α : Type} (budget : TableBudget) (entry : EntryPoint) (width : ℕ) (zero : α)
    (length : ℕ) : Run (Array α) := do
  let _ ← Run.mulWord length width
  budget.table entry length width zero

/-- Fills the entries from `index` to `last` with the sum of the two before them. -/
def fill (last : ℕ) : ℕ → ℕ → Array Int64 → Run (Array Int64)
  | 0, _, _ => Run.outOfTurns
  | turns + 1, index, table =>
    if index ≤ last then do
      let before ← Run.subWord index 1
      let previous ← Run.entry table before
      let beforeThat ← Run.subWord index 2
      let second ← Run.entry table beforeThat
      let filled ← Run.setEntry table index (previous + second)
      let next ← Run.addWord index 1
      fill last turns next filled
    else pure table

/-- The Fibonacci number at `n`, from a table of any supply. -/
def fibonacci (supply : ℕ → Run (Array Int64)) (n : Int64) : Run Int64 := do
  Run.ofExcept (checkDomain .fibonacci n)
  let last ← Run.toIndex n.toInt
  let length ← Run.addWord last 2
  let zeroed ← supply length
  let seeded ← Run.setEntry zeroed 1 1
  let filled ← fill last turnLimit 2 seeded
  Run.entry filled last

/-- Flips the flag of a number of the table. -/
def toggle (table : Array Bool) (number : ℤ) : Run (Array Bool) := do
  let index ← Run.toIndex number
  let flag ← Run.entry table index
  Run.setEntry table index (!flag)

/-- Flips the flag of a number within the limit whose residue modulo 12 is one of two. -/
def toggleOn (first second limit number : ℤ) (table : Array Bool) : Run (Array Bool) := do
  let _ ← Run.toIndex number
  if number ≤ limit ∧ (number.tmod 12 = first ∨ number.tmod 12 = second) then
    toggle table number
  else pure table

/-- Flips the flags that the pair `x`, `y` stands for. -/
def togglePair (limit x y : ℤ) (table : Array Bool) : Run (Array Bool) := do
  let square ← Run.mulSigned y y
  let four ← leadingTerm 4 x
  let first ← Run.addSigned four square
  let once ← toggleOn 1 5 limit first table
  let three ← leadingTerm 3 x
  let second ← Run.addSigned three square
  let twice ← toggleOn 7 7 limit second once
  if y < x then
    let third ← Run.subSigned three square
    toggleOn 11 11 limit third twice
  else pure twice

/-- Goes through the pairs of one `x`, from `y` upward while its square is within the limit. -/
def toggleRow (limit x : ℕ) : ℕ → ℕ → Array Bool → Run (Array Bool)
  | 0, _, _ => Run.outOfTurns
  | turns + 1, y, table => do
    let square ← Run.mulSigned y y
    if square ≤ limit then
      let toggled ← togglePair limit x y table
      let _ ← Run.addSigned y 1
      toggleRow limit x turns (y + 1) toggled
    else pure table

/-- Goes through the rows, from `x` upward while its square is within the limit. -/
def toggleRows (limit : ℕ) : ℕ → ℕ → Array Bool → Run (Array Bool)
  | 0, _, _ => Run.outOfTurns
  | turns + 1, x, table => do
    let square ← Run.mulSigned x x
    if square ≤ limit then
      let toggled ← toggleRow limit x turnLimit 1 table
      let _ ← Run.addSigned x 1
      toggleRows limit turns (x + 1) toggled
    else pure table

/-- Clears the flags at `index`, `index + step`, … below `size`. -/
def clearSteps (size step : ℕ) : ℕ → ℕ → Array Bool → Run (Array Bool)
  | 0, _, _ => Run.outOfTurns
  | turns + 1, index, table =>
    if index < size then do
      let cleared ← Run.setEntry table index false
      let next ← Run.addWord index step
      clearSteps size step turns next cleared
    else pure table

/-- Clears the multiples of a square, from the square on. -/
def clearMultiples (size square : ℕ) (table : Array Bool) : Run (Array Bool) := do
  let step ← Run.stepBy square
  clearSteps size step turnLimit square table

/-- Clears the multiples of the square of every number from `r` on that is still flagged. -/
def clearSquares (size : ℕ) : ℕ → ℕ → Array Bool → Run (Array Bool)
  | 0, _, _ => Run.outOfTurns
  | turns + 1, r, table => do
    let square ← Run.mulWord r r
    if square < size then
      let flagged ← Run.entry table r
      let cleared ← if flagged then clearMultiples size square table else pure table
      let next ← Run.addWord r 1
      clearSquares size turns next cleared
    else pure table

/-- The table of flags up to a limit after both passes. -/
def sieveTable (limit : ℕ) (table : Array Bool) : Run (Array Bool) := do
  let toggled ← toggleRows limit turnLimit 1 table
  clearSquares toggled.size turnLimit 5 toggled

/-- The largest prime up to `limit`, from a table of any supply. -/
def sieve (supply : ℕ → Run (Array Bool)) (limit : Int64) : Run Int32 := do
  Run.ofExcept (checkDomain .sieve limit)
  let bound ← Run.toIndex limit.toInt
  match bound with
  | 0 => pure 0
  | 1 => pure 1
  | 2 => pure 2
  | 3 | 4 => pure 3
  | _ =>
    let length ← Run.addWord bound 1
    let zeroed ← supply length
    let flags ← sieveTable bound zeroed
    Run.toWord ((lastFlagged? flags flags.size).getD 0)

end Watched

/-! ## The table and its fill -/

variable {budget : TableBudget} {limit x y step last : ℕ}

/-- A budget gives a table of a size that an allocator can supply, or runs out of memory. -/
theorem table_outcome {α : Type} (budget : TableBudget) (entry : EntryPoint) (length width : ℕ)
    (zero : α) (small : length * width ≤ TableBudget.allocatorLimit) :
    budget.table entry length width zero = .done (Array.replicate length zero) ∨
      ∃ message, budget.table entry length width zero =
        .failed (TableBudget.outOfMemory entry (length * width) message) := by
  rcases Nat.lt_or_ge budget.maxPages.toNat (pagesForTable (length * width)) with lt | ge
  · exact .inr (budget.table_eq_failed length width entry zero small lt)
  · exact .inl (budget.table_eq_done length width entry zero small ge)

namespace Watched

theorem table_eq {α : Type} (entry : EntryPoint) (width : ℕ) (zero : α) (length : ℕ)
    (small : length * width ≤ TableBudget.allocatorLimit) :
    Watched.table budget entry width zero length = budget.table entry length width zero := by
  simp only [TableBudget.allocatorLimit] at small
  rw [Watched.table, Run.mulWord_eq_done (by omega), Run.done_bind]

/-- Filling stays inside a table of two more entries, and ends within the turns that are left. -/
theorem fill_eq (last_lt : last < 0x80000000) (turns index : ℕ) (table : Array Int64)
    (two_le : 2 ≤ index) (turns_ge : last + 1 < index + turns) (turns_pos : 0 < turns)
    (table_size : table.size = last + 2) :
    fill last turns index table = fillFibonacci last index table := by
  -- Each turn moves the index on, so that the turns left always reach beyond the last one.
  induction turns generalizing index table with
  | zero => omega
  | succ turns hypothesis =>
    rw [fill, fillFibonacci]
    split
    · next within =>
      rw [Run.subWord_eq_done (by omega), Run.done_bind, Run.entry_eq_done (by omega),
        Run.done_bind, Run.done_bind, Run.subWord_eq_done two_le, Run.done_bind,
        Run.entry_eq_done (by omega), Run.done_bind, Run.done_bind,
        Run.setEntry_eq_done (by omega), Run.done_bind, Run.done_bind,
        Run.addWord_eq_done (by omega), Run.done_bind]
      exact hypothesis _ _ (by omega) (by omega) (by omega) (by rwa [Array.size_setIfInBounds])
    · rfl

end Watched

/-! ## The flips -/

namespace Watched

variable {table : Array Bool}

theorem toggle_eq {number : ℤ} (nonneg : 0 ≤ number) (inside : number.toNat < table.size) :
    toggle table number = .done (Table.toggle table number) := by
  rw [toggle, Run.toIndex_eq_done nonneg, Run.done_bind, Run.entry_eq_done inside, Run.done_bind,
    Run.setEntry_eq_done inside, Table.toggle, if_neg (not_lt.mpr nonneg)]
  rfl

theorem toggleOn_eq {first second number : ℤ} (nonneg : 0 ≤ number)
    (table_size : table.size = limit + 1) : toggleOn first second limit number table =
      .done (Table.toggleOn first second limit number table) := by
  rw [toggleOn, Run.toIndex_eq_done nonneg, Run.done_bind, Table.toggleOn]
  split
  · next taken => exact toggle_eq nonneg (by omega)
  · rfl

theorem togglePair_eq (x_le : x * x ≤ limit) (y_le : y * y ≤ limit)
    (limit_lt : limit < 0x80000000) (table_size : table.size = limit + 1) :
    togglePair limit x y table = .done (flipPair limit x y table) := by
  have x_small := le_of_square_le x_le
  have four : (4 * x * x : ℤ) = 4 * (x * x) := by ring
  have three : (3 * x * x : ℤ) = 3 * (x * x) := by ring
  simp only [togglePair, leadingTerm, flipPair]
  rw [Run.mulSigned_eq_done (by omega) (by omega), Run.mulSigned_eq_done (by omega) (by omega),
    Run.mulSigned_eq_done (by omega) (by omega)]
  simp only [Run.done_bind]
  rw [Run.mulSigned_eq_done (by omega) (by omega), Run.mulSigned_eq_done (by omega) (by omega)]
  simp only [Run.done_bind]
  rw [Run.addSigned_eq_done (by omega) (by omega), Run.done_bind,
    toggleOn_eq (by omega) table_size, Run.done_bind,
    Run.addSigned_eq_done (by omega) (by omega), Run.done_bind,
    toggleOn_eq (by omega) (by rwa [size_toggleOn]), Run.done_bind]
  simp only [Nat.cast_lt]
  split
  · next lt =>
    have square_le : y * y ≤ x * x := Nat.mul_self_le_mul_self lt.le
    rw [Run.subSigned_eq_done (by omega) (by omega), Run.done_bind,
      toggleOn_eq (by omega) (by rwa [size_toggleOn, size_toggleOn])]
  · rfl

theorem toggleRow_eq (x_le : x * x ≤ limit) (limit_lt : limit < 0x80000000) (turns y : ℕ)
    (table : Array Bool) (y_le : y ≤ limit + 1) (turns_ge : limit + 1 < y + turns)
    (table_size : table.size = limit + 1) :
    toggleRow limit x turns y table = Table.toggleRow limit x y table := by
  induction turns generalizing y table with
  | zero => omega
  | succ turns hypothesis =>
    have square := Nat.mul_self_le_mul_self (y_le.trans limit_lt)
    rw [toggleRow, Run.mulSigned_eq_done (by omega) (by omega), Run.done_bind]
    split
    · next within =>
      have y_within : y * y ≤ limit := by exact_mod_cast within
      have y_small := le_of_square_le y_within
      rw [togglePair_eq x_le y_within limit_lt table_size, Run.done_bind,
        Run.addSigned_eq_done (by omega) (by omega), Run.done_bind,
        hypothesis _ _ (by omega) (by omega) (by rwa [size_flipPair]),
        toggleRow_within x_le y_within limit_lt]
    · next beyond =>
      have y_beyond : limit < y * y := by exact_mod_cast not_le.mp beyond
      exact (toggleRow_beyond (by omega) y_beyond).symm

theorem toggleRows_eq (limit_lt : limit < 0x80000000) (turns x : ℕ) (table : Array Bool)
    (x_pos : 0 < x) (x_le : x ≤ limit + 1) (turns_ge : limit + 1 < x + turns)
    (table_size : table.size = limit + 1) :
    toggleRows limit turns x table = Table.toggleRows limit x table := by
  induction turns generalizing x table with
  | zero => omega
  | succ turns hypothesis =>
    have square := Nat.mul_self_le_mul_self (x_le.trans limit_lt)
    rw [toggleRows, Run.mulSigned_eq_done (by omega) (by omega), Run.done_bind]
    split
    · next within =>
      have x_within : x * x ≤ limit := by exact_mod_cast within
      have x_small := le_of_square_le x_within
      obtain ⟨row, through, row_size, _⟩ :=
        toggleRow_flags x_pos x_within limit_lt 1 one_pos (by omega) table table_size
      rw [toggleRow_eq x_within limit_lt turnLimit 1 table (by omega)
          (by simp only [turnLimit]; omega) table_size, through, Run.done_bind,
        Run.addSigned_eq_done (by omega) (by omega), Run.done_bind,
        hypothesis _ _ (by omega) (by omega) (by omega) row_size,
        toggleRows_within x_within limit_lt through]
    · next beyond =>
      have x_beyond : limit < x * x := by exact_mod_cast not_le.mp beyond
      exact (toggleRows_beyond (by omega) x_beyond).symm

end Watched

/-! ## Clearing the multiples of squares -/

namespace Watched

theorem clearSteps_eq (step_pos : 0 < step) (step_le : step ≤ 0x80000000) (turns index : ℕ)
    (table : Array Bool) (small : table.size ≤ 0x80000000) (turns_pos : 0 < turns)
    (turns_ge : table.size < index + turns) :
    clearSteps table.size step turns index table =
      Table.clearSteps table.size step index table := by
  induction turns generalizing index table with
  | zero => omega
  | succ turns hypothesis =>
    rw [clearSteps]
    split
    · next within =>
      have rest := hypothesis (index + step) (table.setIfInBounds index false)
      rw [Array.size_setIfInBounds] at rest
      rw [Run.setEntry_eq_done within, Run.done_bind, Run.addWord_eq_done (by omega),
        Run.done_bind, rest small (by omega) (by omega), clearSteps_within within step_pos]
    · next beyond => exact (clearSteps_beyond (by omega)).symm

theorem clearMultiples_eq {table : Array Bool} {square : ℕ} (square_pos : 0 < square)
    (square_lt : square < table.size) (small : table.size ≤ 0x80000000) :
    clearMultiples table.size square table = Table.clearSteps table.size square square table := by
  rw [clearMultiples, Run.stepBy_eq_done square_pos, Run.done_bind]
  exact clearSteps_eq square_pos (by omega) turnLimit square table small (by decide)
    (by simp only [turnLimit]; omega)

theorem clearSquares_eq (turns r : ℕ) (table : Array Bool) (r_pos : 0 < r)
    (r_le : r ≤ 0x80000000) (small : table.size ≤ 0x80000000) (turns_pos : 0 < turns)
    (turns_ge : table.size < r + turns) :
    clearSquares table.size turns r table = Table.clearSquares table.size r table := by
  induction turns generalizing r table with
  | zero => omega
  | succ turns hypothesis =>
    have square := Nat.mul_self_le_mul_self r_le
    rw [clearSquares, Run.mulWord_eq_done (by omega), Run.done_bind]
    split
    · next within =>
      have inside : r < table.size := (Nat.le_mul_self r).trans_lt within
      rw [Run.entry_eq_done inside, Run.done_bind, ← flag_eq inside]
      rcases Bool.eq_false_or_eq_true (flag table r) with flagged | unflagged
      · obtain ⟨cleared, finished, cleared_size, _⟩ :=
          clearSteps_flags (Nat.mul_pos r_pos r_pos) (r * r) table
        have rest := hypothesis (r + 1) cleared
        rw [cleared_size] at rest
        rw [flagged, if_pos rfl, clearMultiples_eq (Nat.mul_pos r_pos r_pos) within small,
          finished, Run.addWord_eq_done (by omega)]
        simp only [Run.done_bind]
        rw [rest (by omega) (by omega) small (by omega) (by omega),
          clearSquares_take small within flagged finished]
      · rw [unflagged, if_neg Bool.false_ne_true, Run.pure_eq_done,
          Run.addWord_eq_done (by omega)]
        simp only [Run.done_bind]
        rw [hypothesis (r + 1) table (by omega) (by omega) small (by omega) (by omega),
          clearSquares_skip small within unflagged]
    · next beyond => exact (clearSquares_beyond r_le (by omega)).symm

/-- Both passes over a fresh table stay inside it. -/
theorem sieveTable_eq (limit_lt : limit < 0x7fffffff) :
    sieveTable limit (Array.replicate (limit + 1) false) =
      Table.sieveTable limit (Array.replicate (limit + 1) false) := by
  have limit_small : limit < 0x80000000 := by omega
  obtain ⟨toggled, through, toggled_size, _⟩ := toggleRows_parity limit_small
  rw [sieveTable, Table.sieveTable,
    toggleRows_eq limit_small turnLimit 1 _ one_pos (by omega)
      (by simp only [turnLimit]; omega) Array.size_replicate, through, Run.done_bind, Run.done_bind,
    clearSquares_eq turnLimit 5 toggled (by omega) (by omega) (by omega) (by decide)
      (by simp only [turnLimit]; omega)]

end Watched

end Table

end TableKernels
