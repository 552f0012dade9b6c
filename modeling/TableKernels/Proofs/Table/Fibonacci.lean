import TableKernels.Proofs.Table.Checked

/-!
# The answer of `fibonacci`

Filling goes from the bottom up, so the entries below the index are Fibonacci numbers modulo
`2 ^ 64`, and the run answers with the one at the argument.
-/

namespace TableKernels.Table

/-- The Fibonacci number at an index, modulo `2 ^ 64`. -/
def fibonacciWord (index : ℕ) : Int64 := Int64.ofNat (Nat.fib index)

theorem fibonacciWord_add (index : ℕ) : fibonacciWord (index + 1) + fibonacciWord index =
    fibonacciWord (index + 2) := by
  rw [fibonacciWord, fibonacciWord, fibonacciWord, ← Int64.ofNat_add, Nat.fib_add_two,
    Nat.add_comm]

variable {last : ℕ}

/-- The entries up to a bound are Fibonacci numbers. -/
def Filled (bound : ℕ) (table : Array Int64) : Prop :=
  ∀ index, index < bound → table[index]? = some (fibonacciWord index)

theorem fillFibonacci_filled (last index : ℕ) (two_le : 2 ≤ index) (le : index ≤ last + 2)
    (table : Array Int64) (size : table.size = last + 2) (filled : Filled index table) :
    ∃ result, fillFibonacci last index table = .done result ∧ result.size = last + 2 ∧
      Filled (last + 1) result := by
  unfold fillFibonacci
  rcases Nat.lt_or_ge last index with beyond | within
  · rw [if_neg (Nat.not_le.mpr beyond)]
    exact ⟨table, rfl, size, fun entry lt => filled entry (by omega)⟩
  · obtain ⟨rest, rfl⟩ := Nat.exists_eq_add_of_le' two_le
    have previous := filled (rest + 1) (by omega)
    have second := filled rest (by omega)
    rw [Array.getElem?_eq_getElem (by omega), Option.some_inj] at previous second
    obtain ⟨result, finished, result_size, entries⟩ := fillFibonacci_filled last (rest + 2 + 1)
      (by omega) (by omega) (table.setIfInBounds (rest + 2) (fibonacciWord (rest + 2)))
      (by rw [Array.size_setIfInBounds, size]) (by
        intro index lt
        rw [Array.getElem?_setIfInBounds]
        split
        · next same =>
          subst same
          rw [if_pos (by omega)]
        · exact filled index (by omega))
    refine ⟨result, ?_, result_size, entries⟩
    rw [if_pos within, show rest + 2 - 1 = rest + 1 by omega, show rest + 2 - 2 = rest by omega,
      Run.entry_eq_done (by omega), Run.done_bind, Run.entry_eq_done (by omega), Run.done_bind,
      Run.setEntry_eq_done (by omega), Run.done_bind, previous, second, fibonacciWord_add, finished]
termination_by last + 1 - index

/-! ## The entry point -/

variable {budget : TableBudget} {argument : Int64}

theorem fibonacci_of_le (nonneg : 0 ≤ argument.toInt) (le_max : argument.toInt ≤ fibonacciMax) :
    fibonacci budget argument = (do
      let zeroed ← budget.table .fibonacci (argument.toInt.toNat + 2) 8 (0 : Int64)
      let seeded ← Run.setEntry zeroed 1 1
      let filled ← fillFibonacci argument.toInt.toNat 2 seeded
      Run.entry filled argument.toInt.toNat) := by
  rw [fibonacci, checkDomain_of_inside .fibonacci rfl nonneg le_max]
  simp only [fibonacciMax] at le_max
  simp only [Run.ofExcept, Run.done_bind]
  rw [Run.addWord_eq_done (by omega), Run.done_bind]

/-- Within its domain and its budget `fibonacci` answers with the Fibonacci number. -/
theorem fibonacci_eq_done (nonneg : 0 ≤ argument.toInt) (le_max : argument.toInt ≤ fibonacciMax)
    (admitted : pagesForTable ((argument.toInt.toNat + 2) * 8) ≤ budget.maxPages.toNat) :
    fibonacci budget argument = .done (fibonacciWord argument.toInt.toNat) := by
  have zeroed := TableBudget.table_eq_done budget (argument.toInt.toNat + 2) 8 .fibonacci
    (0 : Int64) (EntryPoint.asksFor_fibonacci nonneg le_max).small admitted
  obtain ⟨result, finished, size, filled⟩ :=
    fillFibonacci_filled argument.toInt.toNat 2 (le_refl 2) (by omega)
    ((Array.replicate (argument.toInt.toNat + 2) (0 : Int64)).setIfInBounds 1 1)
    (by rw [Array.size_setIfInBounds, Array.size_replicate]) (by
      intro index lt
      rw [Array.getElem?_setIfInBounds, Array.getElem?_replicate, Array.size_replicate]
      rcases (by omega : index = 0 ∨ index = 1) with rfl | rfl
      · simp [fibonacciWord]
      · simp [fibonacciWord])
  have entry := filled argument.toInt.toNat (Nat.lt_succ_self _)
  rw [Array.getElem?_eq_getElem (by omega), Option.some_inj] at entry
  rw [fibonacci_of_le nonneg le_max, zeroed, Run.done_bind,
    Run.setEntry_eq_done (by rw [Array.size_replicate]; omega), Run.done_bind, finished,
    Run.done_bind, Run.entry_eq_done (by omega), entry]

theorem fibonacci_eq_failed (nonneg : 0 ≤ argument.toInt)
    (le_max : argument.toInt ≤ fibonacciMax)
    (refused : budget.maxPages.toNat < pagesForTable ((argument.toInt.toNat + 2) * 8)) :
    ∃ message, fibonacci budget argument =
      .failed (TableBudget.outOfMemory .fibonacci ((argument.toInt.toNat + 2) * 8) message) := by
  obtain ⟨message, failed⟩ := TableBudget.table_eq_failed budget (argument.toInt.toNat + 2) 8
    .fibonacci (0 : Int64) (EntryPoint.asksFor_fibonacci nonneg le_max).small refused
  refine ⟨message, ?_⟩
  rw [fibonacci_of_le nonneg le_max, failed, Run.failed_bind]

end TableKernels.Table
