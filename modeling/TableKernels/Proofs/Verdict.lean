import TableKernels.Proofs.Table.Answer
import TableKernels.Proofs.Table.Fibonacci

/-!
# What becomes of an argument

Every implementation of the kernels decides about an argument in the same way: it is refused outside
the domain, answered at once, or answered from a table that must fit the page limit. A `Verdict` is
that decision, and `Verdict.result` what a caller is told. The texts of internal faults are left to
each implementation, so results are compared after `Failure.erased`.
-/

namespace TableKernels

variable {α : Type} {budget : TableBudget} {argument : Int64}

/-- A failure without the text of an internal fault. -/
def Failure.erased : Failure → Failure
  | .internalTrap report => .internalTrap { report with message := "" }
  | failure => failure

/-- A result without the text of an internal fault. -/
def erased (result : Except Failure α) : Except Failure α := result.mapError Failure.erased

/-- The check of its domain that an argument fails. -/
def domainFault? (entry : EntryPoint) (argument : Int64) : Option ArgumentCheck :=
  match entry.domainMax? with
  | none => none
  | some greatest =>
    if argument.toInt < 0 then some .negative
    else if greatest < argument.toInt then some .exceedsIndexRange
    else none

theorem checkDomain_eq (entry : EntryPoint) (argument : Int64) :
    checkDomain entry argument =
      match domainFault? entry argument with
      | some check => .error (.invalidArgument entry argument check)
      | none => .ok () := by
  simp only [checkDomain, domainFault?]
  cases entry.domainMax? with
  | none => rfl
  | some greatest =>
    simp only
    split
    · rfl
    · split
      · rfl
      · rfl

/-- What a bounded domain lets pass lies between zero and its bound. -/
theorem domainFault?_eq_none_iff {entry : EntryPoint} {greatest : ℤ}
    (bound : entry.domainMax? = some greatest) :
    domainFault? entry argument = none ↔ 0 ≤ argument.toInt ∧ argument.toInt ≤ greatest := by
  simp only [domainFault?, bound]
  split
  · next negative =>
    simp only [reduceCtorEq, false_iff]
    omega
  · split
    · next beyond =>
      simp only [reduceCtorEq, false_iff]
      omega
    · simp only [true_iff]
      omega

/-- A kernel that checks its domain first is refused outside of it, whatever it does inside. -/
theorem refused_of_fault {entry : EntryPoint} {check : ArgumentCheck}
    (fault : domainFault? entry argument = some check) (next : Unit → Run α) :
    (Run.ofExcept (checkDomain entry argument) >>= next) =
      .failed (.invalidArgument entry argument check) := by
  rw [checkDomain_eq, fault]
  rfl

/-- A kernel that computes a number. -/
inductive EntryPoint.IsNumeric : EntryPoint → Prop
  | fibonacci : IsNumeric .fibonacci
  | sieve : IsNumeric .sieve

/-- What becomes of an argument. -/
inductive Verdict (α : Type)
  /-- The argument fails a check. -/
  | refused (check : ArgumentCheck)
  /-- The table of so many bytes does not fit the page limit. -/
  | starved (bytes : ℕ)
  /-- The answer needs no table. -/
  | fixed (answer : α)
  /-- The answer is found in a table of so many bytes. -/
  | tabled (bytes : ℕ) (answer : α)

namespace Verdict

/-- The verdict on an argument that needs a table of so many bytes. -/
def ofTable (maxPages bytes : ℕ) (answer : α) : Verdict α :=
  if pagesForTable bytes ≤ maxPages then .tabled bytes answer else .starved bytes

/-- The verdict of `fibonacci` under a page limit. -/
def fibonacci (maxPages : ℕ) (argument : Int64) : Verdict Int64 :=
  match domainFault? .fibonacci argument with
  | some check => .refused check
  | none =>
    let n := argument.toInt.toNat
    .ofTable maxPages ((n + 2) * 8) (Table.fibonacciWord n)

/-- The verdict of `sieve` under a page limit. -/
def sieve (maxPages : ℕ) (argument : Int64) : Verdict Int32 :=
  match domainFault? .sieve argument with
  | some check => .refused check
  | none =>
    let limit := argument.toInt.toNat
    if limit < 5 then .fixed (Table.sentinel limit)
    else .ofTable maxPages (limit + 1) (Int32.ofNat (Table.greatestPrime limit))

/-- The verdict of an implementation that also has the caps of a configuration. -/
def capped (config : Config) (entry : EntryPoint) (argument : Int64) (verdict : Verdict α) :
    Verdict α :=
  match config.checkHostLimit entry argument with
  | .error _ => .refused .exceedsHostLimit
  | .ok () => verdict

/-- What a caller is told, without the text of an internal fault. -/
def result (entry : EntryPoint) (argument : Int64) : Verdict α → Except Failure α
  | refused check => .error (.invalidArgument entry argument check)
  | starved bytes => .error (TableBudget.outOfMemory entry bytes "")
  | fixed answer | tabled _ answer => .ok answer

end Verdict

/-! ## The reference -/

theorem Config.checkHostLimit_error {config : Config} {entry : EntryPoint} {argument : Int64}
    {failure : Failure} (exceeded : config.checkHostLimit entry argument = .error failure) :
    failure = .invalidArgument entry argument .exceedsHostLimit := by
  simp only [Config.checkHostLimit] at exceeded
  split at exceeded
  · cases exceeded
  · split at exceeded
    · cases exceeded
      rfl
    · cases exceeded

/-- The reference tells the caller of `fibonacci` what the verdict says. -/
theorem Table.fibonacci_verdict (budget : TableBudget) (argument : Int64) :
    erased ((Table.fibonacci budget argument).barrier .fibonacci) =
      (Verdict.fibonacci budget.maxPages.toNat argument).result .fibonacci argument := by
  rw [Verdict.fibonacci]
  cases fault : domainFault? .fibonacci argument with
  | some check =>
    exact congrArg (fun run : Run Int64 => erased (run.barrier .fibonacci))
      (refused_of_fault fault _)
  | none =>
    obtain ⟨nonneg, le_max⟩ := (domainFault?_eq_none_iff rfl).mp fault
    simp only [Verdict.ofTable]
    split
    · next fits =>
      rw [Table.fibonacci_eq_done nonneg le_max fits]
      rfl
    · next exceeds =>
      obtain ⟨message, failed⟩ :=
        Table.fibonacci_eq_failed nonneg le_max (Nat.lt_of_not_le exceeds)
      rw [failed]
      rfl

/-- The reference tells the caller of `sieve` what the verdict says. -/
theorem Table.sieve_verdict (budget : TableBudget) (argument : Int64) :
    erased ((Table.sieve budget argument).barrier .sieve) =
      (Verdict.sieve budget.maxPages.toNat argument).result .sieve argument := by
  rw [Verdict.sieve]
  cases fault : domainFault? .sieve argument with
  | some check =>
    exact congrArg (fun run : Run Int32 => erased (run.barrier .sieve)) (refused_of_fault fault _)
  | none =>
    obtain ⟨nonneg, le_max⟩ := (domainFault?_eq_none_iff rfl).mp fault
    simp only [Verdict.ofTable]
    split
    · next small =>
      rw [Table.sieve_eq_sentinel nonneg (by omega)]
      rfl
    · next large =>
      have le : 5 ≤ argument.toInt := by omega
      split
      · next fits =>
        rw [Table.sieve_eq_done le le_max fits]
        rfl
      · next exceeds =>
        obtain ⟨message, failed⟩ := Table.sieve_eq_failed le le_max (Nat.lt_of_not_le exceeds)
        rw [failed]
        rfl

/-- A kernel that computes a number: how the reference runs it, and what becomes of an argument. -/
structure Numeric (α : Type) where
  entry : EntryPoint
  run : TableBudget → Int64 → Run α
  verdict : ℕ → Int64 → Verdict α
  /-- Outside the domain the page limit does not matter. -/
  refused : ∀ {maxPages argument check}, domainFault? entry argument = some check →
    verdict maxPages argument = .refused check
  told : ∀ budget argument, erased ((run budget argument).barrier entry) =
    (verdict budget.maxPages.toNat argument).result entry argument

namespace Numeric

/-- The Fibonacci numbers. -/
def fibonacci : Numeric Int64 where
  entry := .fibonacci
  run := Table.fibonacci
  verdict := Verdict.fibonacci
  refused fault := by rw [Verdict.fibonacci, fault]
  told := Table.fibonacci_verdict

/-- The largest primes. -/
def sieve : Numeric Int32 where
  entry := .sieve
  run := Table.sieve
  verdict := Verdict.sieve
  refused fault := by rw [Verdict.sieve, fault]
  told := Table.sieve_verdict

end Numeric

end TableKernels
