import Mathlib
import TableKernels.Table.Fibonacci
import TableKernels.Table.Sieve

/-!
# Checked operations within their range

A checked operation whose exact result fits finishes with it, and an access inside a table finds
its entry, so a run in range goes on like plain arithmetic. A table within the budget is had whenever
its size is one that an allocator can supply.
-/

namespace TableKernels

namespace Run

variable {α β : Type}

theorem bind_eq_of_done {run : Run α} {value : α} (finished : run = done value)
    (next : α → Run β) : (run >>= next) = next value := by
  rw [finished]
  rfl

theorem bind_eq_of_failed {run : Run α} {failure : Failure} (refused : run = failed failure)
    (next : α → Run β) : (run >>= next) = failed failure := by
  rw [refused]
  rfl

@[simp]
theorem done_bind (value : α) (next : α → Run β) : (done value >>= next) = next value :=
  bind_eq_of_done rfl next

@[simp]
theorem failed_bind (failure : Failure) (next : α → Run β) :
    (failed failure >>= next) = failed failure :=
  bind_eq_of_failed rfl next

@[simp]
theorem pure_eq_done (value : α) : (pure value : Run α) = done value := rfl

theorem fitsSigned_of_lt {value : ℤ} (lower : -0x8000000000000000 ≤ value)
    (upper : value < 0x8000000000000000) : fitsSigned value = true := by
  simp only [fitsSigned, Bool.and_eq_true, decide_eq_true_eq]
  exact ⟨lower, upper⟩

theorem addSigned_eq_done {left right : ℤ} (lower : -0x8000000000000000 ≤ left + right)
    (upper : left + right < 0x8000000000000000) : addSigned left right = done (left + right) :=
  if_pos (fitsSigned_of_lt lower upper)

theorem subSigned_eq_done {left right : ℤ} (lower : -0x8000000000000000 ≤ left - right)
    (upper : left - right < 0x8000000000000000) : subSigned left right = done (left - right) :=
  if_pos (fitsSigned_of_lt lower upper)

theorem mulSigned_eq_done {left right : ℤ} (lower : -0x8000000000000000 ≤ left * right)
    (upper : left * right < 0x8000000000000000) : mulSigned left right = done (left * right) :=
  if_pos (fitsSigned_of_lt lower upper)

theorem addWord_eq_done {left right : ℕ} (upper : left + right < 0x10000000000000000) :
    addWord left right = done (left + right) :=
  if_pos upper

theorem mulWord_eq_done {left right : ℕ} (upper : left * right < 0x10000000000000000) :
    mulWord left right = done (left * right) :=
  if_pos upper

theorem entry_eq_done {table : Array α} {index : ℕ} (inside : index < table.size) :
    entry table index = done table[index] :=
  dif_pos inside

theorem setEntry_eq_done {table : Array α} {index : ℕ} (inside : index < table.size)
    (value : α) : setEntry table index value = done (table.setIfInBounds index value) := by
  rw [setEntry, dif_pos inside, Array.setIfInBounds_def, dif_pos inside]

end Run

theorem checkDomain_of_inside (entry : EntryPoint) {greatest : ℤ} {argument : Int64}
    (bound : entry.domainMax? = some greatest) (nonneg : 0 ≤ argument.toInt)
    (le : argument.toInt ≤ greatest) : checkDomain entry argument = .ok () := by
  simp only [checkDomain, bound]
  rw [if_neg (by omega), if_neg (by omega)]

/-! ## Tables -/

/-- A table that a kernel asks for: so many entries of a width in bytes. -/
inductive EntryPoint.AsksFor : EntryPoint → ℕ → ℕ → Prop
  | fibonacci (n : ℕ) (le : (n : ℤ) ≤ fibonacciMax) : AsksFor .fibonacci (n + 2) 8
  | sieve (limit : ℕ) (gt : 4 < limit) (le : (limit : ℤ) ≤ sieveMax) :
      AsksFor .sieve (limit + 1) 1

/-- An allocator can supply every table that a kernel asks for. -/
theorem EntryPoint.AsksFor.small {entry : EntryPoint} {length width : ℕ}
    (request : entry.AsksFor length width) : length * width ≤ TableBudget.allocatorLimit := by
  simp only [TableBudget.allocatorLimit]
  cases request with
  | fibonacci n le =>
    simp only [fibonacciMax] at le
    omega
  | sieve limit gt le =>
    simp only [sieveMax] at le
    omega

theorem EntryPoint.asksFor_fibonacci {argument : Int64} (nonneg : 0 ≤ argument.toInt)
    (le : argument.toInt ≤ fibonacciMax) : AsksFor .fibonacci (argument.toInt.toNat + 2) 8 :=
  .fibonacci _ (by rwa [Int.toNat_of_nonneg nonneg])

theorem EntryPoint.asksFor_sieve {argument : Int64} (ge : 5 ≤ argument.toInt)
    (le : argument.toInt ≤ sieveMax) : AsksFor .sieve (argument.toInt.toNat + 1) 1 :=
  .sieve _ (by omega) (by rwa [Int.toNat_of_nonneg (by omega)])

/-- A budget that admits a table of a size that an allocator can supply gives it, zeroed. -/
theorem TableBudget.table_eq_done {α : Type} (budget : TableBudget) (length width : ℕ)
    (entry : EntryPoint) (zero : α) (small : length * width ≤ allocatorLimit)
    (admitted : pagesForTable (length * width) ≤ budget.maxPages.toNat) :
    budget.table entry length width zero = .done (Array.replicate length zero) := by
  have small' : length * width ≤ 0x1000000000 := small
  have bytes : min (length * width) 0xffffffffffffffff = length * width := by omega
  have limit : ¬ allocationLimit < length * width := by
    simp only [allocationLimit]
    omega
  have within : heapStart + length * width < 0x10000000000000000 := by
    simp only [heapStart]
    omega
  simp [table, bytes, Run.addWord_eq_done within, admits, admitted, limit, small]

/-- A budget refuses a table that it does not admit. -/
theorem TableBudget.table_eq_failed {α : Type} (budget : TableBudget) (length width : ℕ)
    (entry : EntryPoint) (zero : α) (small : length * width ≤ allocatorLimit)
    (refused : budget.maxPages.toNat < pagesForTable (length * width)) :
    ∃ message, budget.table entry length width zero =
      .failed (outOfMemory entry (length * width) message) := by
  have small' : length * width ≤ 0x1000000000 := small
  have bytes : min (length * width) 0xffffffffffffffff = length * width := by omega
  have within : heapStart + length * width < 0x10000000000000000 := by
    simp only [heapStart]
    omega
  simp only [table, bytes, Run.addWord_eq_done within, admits, Run.done_bind]
  exact ⟨_, if_pos (by simpa using refused)⟩

end TableKernels
