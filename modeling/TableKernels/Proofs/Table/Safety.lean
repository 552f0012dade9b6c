import TableKernels.Proofs.Table.Watched
import TableKernels.Proofs.Verdict

/-!
# Neither kernel panics

An argument outside the domain is refused before anything else happens. Within the domain a kernel
either runs out of memory or gets a table with an entry for every index that it comes to, and then
the watched kernel runs to the same answer as the running one. So whatever the budget and the
argument, nothing that is watched for happens, and a run answers, refuses or runs out of memory.
-/

namespace TableKernels

namespace Table

variable {budget : TableBudget} {argument : Int64}

/-- The check that an argument fails when the greatest of its domain is known. -/
def FailsDomain (greatest : ℤ) (argument : Int64) : ArgumentCheck → Prop
  | .negative => argument.toInt < 0
  | .exceedsIndexRange => greatest < argument.toInt
  | .exceedsHostLimit => False

theorem domainFault?_eq_some {entry : EntryPoint} {greatest : ℤ} {check : ArgumentCheck}
    (bound : entry.domainMax? = some greatest) (nonneg : 0 ≤ greatest) :
    domainFault? entry argument = some check ↔ FailsDomain greatest argument check := by
  simp only [domainFault?, bound]
  cases check <;> grind [FailsDomain]

/--
A kernel that never panics, together with the form of it that watches its steps and takes its table
from a supply.
-/
structure NeverPanics {α β : Type} (entry : EntryPoint) (greatest : ℤ)
    (kernel : TableBudget → Int64 → Run α) (supply : TableBudget → ℕ → Run (Array β))
    (watched : (ℕ → Run (Array β)) → Int64 → Run α) : Prop where
  /-- Nothing that is watched for happens. -/
  unnoticed : ∀ budget argument, watched (supply budget) argument = kernel budget argument
  /-- A run answers, refuses its argument or runs out of memory. -/
  outcome : ∀ budget argument, (∃ answer, kernel budget argument = .done answer) ∨
    (∃ check, kernel budget argument = .failed (.invalidArgument entry argument check)) ∨
    ∃ bytes message, kernel budget argument =
      .failed (TableBudget.outOfMemory entry bytes message)
  /-- Exactly the arguments outside the domain are refused, whatever the budget. -/
  refused_iff : ∀ budget argument check,
    kernel budget argument = .failed (.invalidArgument entry argument check) ↔
      FailsDomain greatest argument check
  /-- An argument is refused before a table is sized. -/
  refused_first : ∀ table argument check, FailsDomain greatest argument check →
    watched table argument = .failed (.invalidArgument entry argument check)

/--
A kernel never panics if it refuses every argument outside its domain at once, and inside answers or
runs out of memory as its watched form does.
-/
theorem NeverPanics.of_domain {α β : Type} {entry : EntryPoint} {greatest : ℤ}
    {kernel : TableBudget → Int64 → Run α} {supply : TableBudget → ℕ → Run (Array β)}
    {watched : (ℕ → Run (Array β)) → Int64 → Run α}
    (bound : entry.domainMax? = some greatest) (nonneg : 0 ≤ greatest)
    (outside : ∀ table argument check, domainFault? entry argument = some check →
      watched table argument = .failed (.invalidArgument entry argument check))
    (inside : ∀ budget argument, domainFault? entry argument = none →
      (∃ answer, kernel budget argument = .done answer) ∨
      ∃ bytes message, kernel budget argument =
        .failed (TableBudget.outOfMemory entry bytes message))
    (unnoticed : ∀ budget argument, watched (supply budget) argument = kernel budget argument) :
    NeverPanics entry greatest kernel supply watched := by
  have refused : ∀ budget argument check, domainFault? entry argument = some check →
      kernel budget argument = .failed (.invalidArgument entry argument check) := by
    intro budget argument check fault
    rw [← unnoticed]
    exact outside (supply budget) argument check fault
  refine ⟨unnoticed, ?_, ?_, ?_⟩
  · intro budget argument
    cases fault : domainFault? entry argument with
    | some check => exact .inr (.inl ⟨check, refused budget argument check fault⟩)
    | none =>
      rcases inside budget argument fault with done | failed
      · exact .inl done
      · exact .inr (.inr failed)
  · intro budget argument check
    rw [← domainFault?_eq_some bound nonneg]
    refine ⟨fun run => ?_, refused budget argument check⟩
    cases fault : domainFault? entry argument with
    | some other =>
      cases (refused budget argument other fault).symm.trans run
      rfl
    | none =>
      rcases inside budget argument fault with ⟨answer, done⟩ | ⟨bytes, message, failed⟩
      · cases done.symm.trans run
      · cases failed.symm.trans run
  · intro table argument check fails
    exact outside table argument check ((domainFault?_eq_some bound nonneg).mpr fails)

theorem fibonacci_inside (fault : domainFault? .fibonacci argument = none) :
    (∃ answer, fibonacci budget argument = .done answer) ∨
    ∃ bytes message, fibonacci budget argument =
      .failed (TableBudget.outOfMemory .fibonacci bytes message) := by
  obtain ⟨nonneg, le_max⟩ := (domainFault?_eq_none_iff rfl).mp fault
  rcases Nat.lt_or_ge budget.maxPages.toNat
    (pagesForTable ((argument.toInt.toNat + 2) * 8)) with lt | ge
  · exact .inr ⟨_, fibonacci_eq_failed nonneg le_max lt⟩
  · exact .inl ⟨_, fibonacci_eq_done nonneg le_max ge⟩

theorem sieve_inside (fault : domainFault? .sieve argument = none) :
    (∃ answer, sieve budget argument = .done answer) ∨
    ∃ bytes message, sieve budget argument =
      .failed (TableBudget.outOfMemory .sieve bytes message) := by
  obtain ⟨nonneg, le_max⟩ := (domainFault?_eq_none_iff rfl).mp fault
  rcases lt_or_ge argument.toInt 5 with small | large
  · exact .inl ⟨_, sieve_eq_sentinel nonneg small⟩
  · rcases Nat.lt_or_ge budget.maxPages.toNat
      (pagesForTable (argument.toInt.toNat + 1)) with lt | ge
    · exact .inr ⟨_, sieve_eq_failed large le_max lt⟩
    · exact .inl ⟨_, sieve_eq_done large le_max ge⟩

namespace Watched

theorem fibonacci_tabled (supply : ℕ → Run (Array Int64)) (nonneg : 0 ≤ argument.toInt)
    (le_max : argument.toInt ≤ fibonacciMax) :
    fibonacci supply argument = (do
      let zeroed ← supply (argument.toInt.toNat + 2)
      let seeded ← Run.setEntry zeroed 1 1
      let filled ← fill argument.toInt.toNat turnLimit 2 seeded
      Run.entry filled argument.toInt.toNat) := by
  rw [fibonacci, checkDomain_of_inside .fibonacci rfl nonneg le_max, Run.toIndex_eq_done nonneg]
  simp only [fibonacciMax] at le_max
  simp only [Run.ofExcept, Run.done_bind]
  rw [Run.addWord_eq_done (by omega), Run.done_bind]

theorem fibonacci_eq (budget : TableBudget) (argument : Int64) :
    fibonacci (Watched.table budget .fibonacci 8 0) argument = Table.fibonacci budget argument := by
  cases fault : domainFault? .fibonacci argument with
  | some check =>
    exact (refused_of_fault fault _).trans (refused_of_fault fault _).symm
  | none =>
    obtain ⟨nonneg, le_max⟩ := (domainFault?_eq_none_iff rfl).mp fault
    rw [fibonacci_tabled _ nonneg le_max, fibonacci_of_le nonneg le_max]
    have small := (EntryPoint.asksFor_fibonacci nonneg le_max).small
    simp only [fibonacciMax] at le_max
    rw [table_eq .fibonacci 8 0 _ small]
    rcases table_outcome budget .fibonacci _ 8 (0 : Int64) small with
      zeroed | ⟨message, failed⟩
    · rw [zeroed, Run.done_bind, Run.done_bind,
        Run.setEntry_eq_done (by rw [Array.size_replicate]; omega), Run.done_bind, Run.done_bind,
        fill_eq (by omega) turnLimit 2 _ (by omega) (by simp only [turnLimit]; omega) (by decide)
          (by rw [Array.size_setIfInBounds, Array.size_replicate])]
    · rw [failed, Run.failed_bind, Run.failed_bind]

theorem sieve_sentinel (supply : ℕ → Run (Array Bool)) (nonneg : 0 ≤ argument.toInt)
    (lt : argument.toInt < 5) :
    sieve supply argument = .done (sentinel argument.toInt.toNat) := by
  have bound_lt : argument.toInt.toNat < 5 := by omega
  rw [sieve, checkDomain_of_inside .sieve rfl nonneg (by simp only [sieveMax]; omega),
    Run.toIndex_eq_done nonneg]
  generalize argument.toInt.toNat = bound at bound_lt ⊢
  interval_cases bound <;> rfl

theorem sieve_tabled (supply : ℕ → Run (Array Bool)) (le : 5 ≤ argument.toInt)
    (le_max : argument.toInt ≤ sieveMax) :
    sieve supply argument = (do
      let zeroed ← supply (argument.toInt.toNat + 1)
      let flags ← sieveTable argument.toInt.toNat zeroed
      Run.toWord ((lastFlagged? flags flags.size).getD 0)) := by
  obtain ⟨rest, same⟩ : ∃ rest, argument.toInt.toNat = rest + 5 :=
    Nat.exists_eq_add_of_le' (by omega)
  rw [sieve, checkDomain_of_inside .sieve rfl (by omega) le_max, Run.toIndex_eq_done (by omega)]
  simp only [sieveMax] at le_max
  simp only [Run.ofExcept, Run.done_bind, same]
  rw [Run.addWord_eq_done (by omega), Run.done_bind]

/-- Nothing that is watched for happens in a run of `sieve`. -/
theorem sieve_eq (budget : TableBudget) (argument : Int64) :
    sieve (Watched.table budget .sieve 1 false) argument = Table.sieve budget argument := by
  cases fault : domainFault? .sieve argument with
  | some check =>
    exact (refused_of_fault fault _).trans (refused_of_fault fault _).symm
  | none =>
    obtain ⟨nonneg, le_max⟩ := (domainFault?_eq_none_iff rfl).mp fault
    rcases lt_or_ge argument.toInt 5 with small | large
    · rw [sieve_sentinel _ nonneg small, sieve_eq_sentinel nonneg small]
    · rw [sieve_tabled _ large le_max, sieve_of_le large le_max]
      have small := (EntryPoint.asksFor_sieve large le_max).small
      simp only [sieveMax] at le_max
      rw [table_eq .sieve 1 false _ small]
      rcases table_outcome budget .sieve _ 1 false small with
        zeroed | ⟨message, failed⟩
      · obtain ⟨flags, finished, size, last⟩ :=
          sieveTable_lastFlagged? argument.toInt.toNat (by omega) (by omega)
        have prime_le : greatestPrime argument.toInt.toNat ≤ argument.toInt.toNat :=
          Nat.findGreatest_le _
        rw [zeroed, Run.done_bind, Run.done_bind, sieveTable_eq (by omega), finished,
          Run.done_bind, Run.done_bind, size, last, Option.getD_some,
          Run.toWord_eq_done (by omega), Run.pure_eq_done]
      · rw [failed, Run.failed_bind, Run.failed_bind]

end Watched

/--
Neither kernel panics, whatever the budget and the argument: no sum, product or difference leaves
its word, no index its table, no cast changes a number, and no loop takes more than
`Watched.turnLimit` turns.
-/
theorem kernels_never_panic :
    NeverPanics .fibonacci fibonacciMax fibonacci
      (fun budget => Watched.table budget .fibonacci 8 0) Watched.fibonacci ∧
    NeverPanics .sieve sieveMax sieve
      (fun budget => Watched.table budget .sieve 1 false) Watched.sieve :=
  ⟨.of_domain rfl (by decide) (fun _ _ _ fault => refused_of_fault fault _)
      (fun _ _ => fibonacci_inside) Watched.fibonacci_eq,
    .of_domain rfl (by decide) (fun _ _ _ fault => refused_of_fault fault _)
      (fun _ _ => sieve_inside) Watched.sieve_eq⟩

end Table

end TableKernels
