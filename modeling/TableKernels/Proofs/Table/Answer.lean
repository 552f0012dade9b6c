import TableKernels.Proofs.Table.Clear

/-!
# The answer of the sieve

The greatest number whose flag is left is the greatest prime up to the limit, because 5 is left
under every limit that has a table at all.
-/

namespace TableKernels.Table

variable {bound limit : ℕ} {table : Array Bool}

theorem getElem?_eq_some_true (number : ℕ) :
    table[number]? = some true ↔ flag table number = true := by
  rw [flag, Array.getD_eq_getD_getElem?]
  rcases table[number]? with _ | value
  · simp
  · simp

theorem lastFlagged?_eq_some {number : ℕ} (flagged : flag table number = true)
    (lt : number < bound)
    (above : ∀ other, number < other → other < bound → flag table other = false) :
    lastFlagged? table bound = some number := by
  induction bound with
  | zero => omega
  | succ bound hypothesis =>
    rw [lastFlagged?]
    rcases Nat.lt_succ_iff_lt_or_eq.mp lt with lt | rfl
    · have unflagged := above bound lt (Nat.lt_succ_self bound)
      rw [if_neg (by simp [getElem?_eq_some_true, unflagged])]
      exact hypothesis lt fun other gt other_lt => above other gt (by omega)
    · rw [if_pos (getElem?_eq_some_true number |>.mpr flagged)]

/-- The greatest prime up to a number. -/
def greatestPrime (number : ℕ) : ℕ := Nat.findGreatest Nat.Prime number

theorem greatestPrime_prime (le : 5 ≤ limit) : (greatestPrime limit).Prime :=
  Nat.findGreatest_spec (P := Nat.Prime) le (by decide)

theorem le_greatestPrime {prime : ℕ} (is_prime : prime.Prime) (le : prime ≤ limit) :
    prime ≤ greatestPrime limit :=
  Nat.le_findGreatest le is_prime

/-- Both passes leave the flag of the greatest prime up to a limit from 5 on, and none above it. -/
theorem greatestPrime_flagged {flags : Array Bool} (le : 5 ≤ limit)
    (limit_lt : limit < 0x80000000)
    (run : sieveTable limit (Array.replicate (limit + 1) false) = .done flags) :
    flag flags (greatestPrime limit) = true ∧
      ∀ other, greatestPrime limit < other → other ≤ limit → flag flags other = false := by
  obtain ⟨_, finished, size, primes⟩ := sieveTable_flags limit_lt
  cases finished.symm.trans run
  constructor
  · refine (primes _ (Nat.findGreatest_le limit)).mpr ⟨?_, greatestPrime_prime le⟩
    exact le_greatestPrime (by decide) le
  · intro other gt other_le
    rw [← Bool.not_eq_true, primes other other_le]
    rintro ⟨_, prime⟩
    exact Nat.not_le.mpr gt (le_greatestPrime prime other_le)

/-- Both passes and the search find the greatest prime up to a limit from 5 on. -/
theorem sieveTable_lastFlagged? (limit : ℕ) (le : 5 ≤ limit) (limit_lt : limit < 0x80000000) :
    ∃ flags, sieveTable limit (Array.replicate (limit + 1) false) = .done flags ∧
      flags.size = limit + 1 ∧ lastFlagged? flags (limit + 1) = some (greatestPrime limit) := by
  obtain ⟨flags, finished, size, _⟩ := sieveTable_flags limit_lt
  obtain ⟨flagged, above⟩ := greatestPrime_flagged le limit_lt finished
  have lt : greatestPrime limit < limit + 1 := Nat.lt_succ_of_le (Nat.findGreatest_le limit)
  exact ⟨flags, finished, size, lastFlagged?_eq_some flagged lt fun other gt other_lt =>
    above other gt (Nat.le_of_lt_succ other_lt)⟩

/-! ## The entry point -/

variable {budget : TableBudget} {argument : Int64}

/-- The answer of the sieve to a limit below 5. -/
def sentinel : ℕ → Int32
  | 0 => 0
  | 1 => 1
  | 2 => 2
  | _ => 3

/-- A limit below 5 has a fixed answer under any budget. -/
theorem sieve_eq_sentinel (nonneg : 0 ≤ argument.toInt) (lt : argument.toInt < 5) :
    sieve budget argument = .done (sentinel argument.toInt.toNat) := by
  have accepted : checkDomain .sieve argument = .ok () :=
    checkDomain_of_inside .sieve rfl nonneg (by simp only [sieveMax]; omega)
  have cases : argument.toInt.toNat = 0 ∨ argument.toInt.toNat = 1 ∨ argument.toInt.toNat = 2 ∨
      argument.toInt.toNat = 3 ∨ argument.toInt.toNat = 4 := by
    omega
  rw [sieve, accepted]
  obtain same | same | same | same | same := cases
  all_goals
    rw [same]
    rfl

/-- A limit from 5 on that is within the domain needs a table. -/
theorem sieve_of_le (le : 5 ≤ argument.toInt) (le_max : argument.toInt ≤ sieveMax) :
    sieve budget argument = (do
      let zeroed ← budget.table .sieve (argument.toInt.toNat + 1) 1 false
      let flags ← sieveTable argument.toInt.toNat zeroed
      pure (Int32.ofNat ((lastFlagged? flags flags.size).getD 0))) := by
  obtain ⟨rest, same⟩ : ∃ rest, argument.toInt.toNat = rest + 5 :=
    Nat.exists_eq_add_of_le' (by omega)
  rw [sieve, checkDomain_of_inside .sieve rfl (by omega) le_max]
  simp only [sieveMax] at le_max
  simp only [Run.ofExcept, Run.done_bind, same]
  rw [Run.addWord_eq_done (by omega), Run.done_bind]

theorem sieve_eq_done (le : 5 ≤ argument.toInt) (le_max : argument.toInt ≤ sieveMax)
    (admitted : pagesForTable (argument.toInt.toNat + 1) ≤ budget.maxPages.toNat) :
    sieve budget argument = .done (Int32.ofNat (greatestPrime argument.toInt.toNat)) := by
  have limit_lt : argument.toInt.toNat < 0x80000000 := by
    simp only [sieveMax] at le_max
    omega
  obtain ⟨flags, finished, size, last⟩ :=
    sieveTable_lastFlagged? argument.toInt.toNat (by omega) limit_lt
  have zeroed := TableBudget.table_eq_done budget (argument.toInt.toNat + 1) 1 .sieve false
    (EntryPoint.asksFor_sieve le le_max).small (by rwa [Nat.mul_one])
  rw [sieve_of_le le le_max, zeroed, Run.done_bind, finished, Run.done_bind, size, last]
  rfl

theorem sieve_eq_failed (le : 5 ≤ argument.toInt) (le_max : argument.toInt ≤ sieveMax)
    (refused : budget.maxPages.toNat < pagesForTable (argument.toInt.toNat + 1)) :
    ∃ message, sieve budget argument =
      .failed (TableBudget.outOfMemory .sieve (argument.toInt.toNat + 1) message) := by
  obtain ⟨message, failed⟩ := TableBudget.table_eq_failed budget (argument.toInt.toNat + 1) 1
    .sieve false (EntryPoint.asksFor_sieve le le_max).small (by rwa [Nat.mul_one])
  refine ⟨message, ?_⟩
  rw [sieve_of_le le le_max, failed, Run.failed_bind, Nat.mul_one]

/--
Within its domain and its budget the sieve answers with the greatest prime up to the limit. The
limits below 5 have fixed answers under any budget.
-/
theorem sieve_greatest_prime (budget : TableBudget) (limit : Int64) :
    (5 ≤ limit.toInt → limit.toInt ≤ sieveMax →
      pagesForTable (limit.toInt + 1).toNat ≤ budget.maxPages.toNat →
      ∃ answer : Int32, sieve budget limit = .done answer ∧
        ∃ p : ℕ, answer.toInt = p ∧ p.Prime ∧ (p : ℤ) ≤ limit.toInt ∧
          ∀ q : ℕ, q.Prime → p < q → ¬ (q : ℤ) ≤ limit.toInt) ∧
    sieve budget 0 = .done 0 ∧ sieve budget 1 = .done 1 ∧ sieve budget 2 = .done 2 ∧
      sieve budget 3 = .done 3 ∧ sieve budget 4 = .done 3 := by
  refine ⟨?_, rfl, rfl, rfl, rfl, rfl⟩
  intro le le_max admitted
  have limit_eq : (limit.toInt + 1).toNat = limit.toInt.toNat + 1 := by omega
  rw [limit_eq] at admitted
  have prime_le : greatestPrime limit.toInt.toNat ≤ limit.toInt.toNat := Nat.findGreatest_le _
  refine ⟨_, sieve_eq_done le le_max admitted, greatestPrime limit.toInt.toNat, ?_,
    greatestPrime_prime (by omega), by omega, ?_⟩
  · rw [Int32.toInt_ofNat_of_lt]
    simp only [sieveMax] at le_max
    omega
  · intro q prime gt q_le
    exact Nat.not_le.mpr gt (le_greatestPrime prime (by omega))

/-- Under a budget of two pages the limit 10 satisfies every condition. -/
theorem sieve_greatest_prime_ten : 5 ≤ (10 : Int64).toInt ∧ (10 : Int64).toInt ≤ sieveMax ∧
    pagesForTable ((10 : Int64).toInt + 1).toNat ≤ (TableBudget.mk 2).maxPages.toNat ∧
    ∃ answer : Int32, sieve ⟨2⟩ 10 = .done answer ∧
      ∃ p : ℕ, answer.toInt = p ∧ p.Prime ∧ (p : ℤ) ≤ (10 : Int64).toInt ∧
        ∀ q : ℕ, q.Prime → p < q → ¬ (q : ℤ) ≤ (10 : Int64).toInt :=
  ⟨by decide, by decide, by decide,
    (sieve_greatest_prime ⟨2⟩ 10).1 (by decide) (by decide) (by decide)⟩

end TableKernels.Table
