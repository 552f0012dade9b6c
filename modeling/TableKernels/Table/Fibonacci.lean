import TableKernels.Config
import TableKernels.Table.Budget

/-!
# Fibonacci numbers from a table

`fibonacci n` fills a table of `n + 2` words, seeded with 0 and 1, from the bottom up. Sums wrap at
64 bits, so beyond `n = 92` the result is the Fibonacci number modulo `2 ^ 64`.
-/

namespace TableKernels.Table

/-- Fills the entries from `index` to `last` with the sum of the two before them. -/
def fillFibonacci (last index : Nat) (table : Array Int64) : Run (Array Int64) :=
  if index ≤ last then do
    let previous ← Run.entry table (index - 1)
    let second ← Run.entry table (index - 2)
    let filled ← Run.setEntry table index (previous + second)
    fillFibonacci last (index + 1) filled
  else pure table
termination_by last + 1 - index

/-- The Fibonacci number at `n`, counted from 0, modulo `2 ^ 64`. -/
def fibonacci (budget : TableBudget) (n : Int64) : Run Int64 := do
  Run.ofExcept (checkDomain .fibonacci n)
  let last := n.toInt.toNat
  let length ← Run.addWord last 2
  let zeroed ← budget.table .fibonacci length 8 (0 : Int64)
  let seeded ← Run.setEntry zeroed 1 1
  let filled ← fillFibonacci last 2 seeded
  Run.entry filled last

end TableKernels.Table
