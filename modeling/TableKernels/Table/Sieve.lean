import TableKernels.Config
import TableKernels.Table.Budget

/-!
# The quadratic-form sieve

`sieve limit` finds the largest prime up to `limit`. A table holds one flag per number. Each pair of
positive `x`, `y` whose squares stay within the limit flips the flag of `4x² + y²`, `3x² + y²` and,
for `x > y`, `3x² - y²`, each only on its own residues modulo 12; then every multiple of the square
of a number still flagged is cleared. What remains flagged from 5 on is prime. Limits below 5 have
fixed answers, of which 1 for the limit 1 is not a prime.

Every sum, product and index is checked against its word or its table, so a run that overflowed
would panic rather than answer.
-/

namespace TableKernels.Table

/-- Flips the flag of a number; one outside the table has no flag. -/
def toggle (table : Array Bool) (number : Int) : Array Bool :=
  if number < 0 then table else table.modify number.toNat not

/-- `coefficient * x * x` in 64-bit arithmetic. -/
def leadingTerm (coefficient x : Int) : Run Int := do
  let product ← Run.mulSigned coefficient x
  Run.mulSigned product x

/-- Flips the flag of a number within the limit whose residue modulo 12 is one of two. -/
def toggleOn (first second limit number : Int) (table : Array Bool) : Array Bool :=
  if number ≤ limit ∧ (number.tmod 12 = first ∨ number.tmod 12 = second) then
    toggle table number
  else table

/-- Flips the flags that the pair `x`, `y` stands for. -/
def togglePair (limit x y : Int) (table : Array Bool) : Run (Array Bool) := do
  let square ← Run.mulSigned y y
  let four ← leadingTerm 4 x
  let three ← leadingTerm 3 x
  let first ← Run.addSigned four square
  let second ← Run.addSigned three square
  let flipped := toggleOn 7 7 limit second (toggleOn 1 5 limit first table)
  if y < x then
    let third ← Run.subSigned three square
    pure (toggleOn 11 11 limit third flipped)
  else pure flipped

theorem le_of_square_le {number limit : Nat} (within : number * number ≤ limit) :
    number ≤ limit :=
  Nat.le_trans (Nat.le_mul_self number) within

/-- Goes through the pairs of one `x`, from `y` upward while its square is within the limit. -/
def toggleRow (limit x y : Nat) (table : Array Bool) : Run (Array Bool) := do
  -- The square is taken in machine arithmetic for the check that it fits.
  let _ ← Run.mulSigned y y
  if within : y * y ≤ limit then
    let toggled ← togglePair limit x y table
    let _ ← Run.addSigned y 1
    toggleRow limit x (y + 1) toggled
  else pure table
termination_by limit + 1 - y
decreasing_by have := le_of_square_le within; omega

/-- Goes through the rows, from `x` upward while its square is within the limit. -/
def toggleRows (limit x : Nat) (table : Array Bool) : Run (Array Bool) := do
  let _ ← Run.mulSigned x x
  if within : x * x ≤ limit then
    let toggled ← toggleRow limit x 1 table
    let _ ← Run.addSigned x 1
    toggleRows limit (x + 1) toggled
  else pure table
termination_by limit + 1 - x
decreasing_by have := le_of_square_le within; omega

/-- Clears the flags at `index`, `index + step`, … below `size`. -/
def clearSteps (size step index : Nat) (table : Array Bool) : Run (Array Bool) :=
  if index < size ∧ 0 < step then do
    let cleared ← Run.setEntry table index false
    clearSteps size step (index + step) cleared
  else pure table
termination_by size - index

/-- Clears the multiples of the square of every number from `r` on that is still flagged. -/
def clearSquares (size r : Nat) (table : Array Bool) : Run (Array Bool) := do
  let square ← Run.mulWord r r
  if within : r * r < size then
    let flagged ← Run.entry table r
    let cleared ← if flagged then clearSteps size square square table else pure table
    let _ ← Run.addWord r 1
    clearSquares size (r + 1) cleared
  else pure table
termination_by size - r
decreasing_by have := Nat.le_mul_self r; omega

/-- The greatest flagged number below `bound`. -/
def lastFlagged? (table : Array Bool) : Nat → Option Nat
  | 0 => none
  | bound + 1 => if table[bound]? = some true then some bound else lastFlagged? table bound

/-- The table of flags up to a limit after both passes. -/
def sieveTable (limit : Nat) (table : Array Bool) : Run (Array Bool) := do
  let toggled ← toggleRows limit 1 table
  clearSquares toggled.size 5 toggled

/-- The largest prime up to `limit`, or the fixed answer of a limit below 5. -/
def sieve (budget : TableBudget) (limit : Int64) : Run Int32 := do
  Run.ofExcept (checkDomain .sieve limit)
  let bound := limit.toInt.toNat
  match bound with
  | 0 => pure 0
  | 1 => pure 1
  | 2 => pure 2
  | 3 | 4 => pure 3
  | _ =>
    let length ← Run.addWord bound 1
    let zeroed ← budget.table .sieve length 1 false
    let flags ← sieveTable bound zeroed
    pure (Int32.ofNat ((lastFlagged? flags flags.size).getD 0))

end TableKernels.Table
