import TableKernels.Proofs.Compiled.Independence

/-!
# Fibonacci numbers in a word

Both kernels answer with the Fibonacci number modulo `2 ^ 64`, read with a sign. Up to 92 that is
the number itself; beyond, the answers still follow the recurrence, with sums that wrap. The
compiled kernel may be asked each time in another state of its instance.
-/

namespace TableKernels

open Wasm Compiled

variable {config : Config} {frames : Frames} {live : LinkedModule} {n : Int64}

namespace Table

theorem toInt_fibonacciWord (index : ℕ) :
    (fibonacciWord index).toInt = (Nat.fib index : ℤ).bmod (2 ^ 64) :=
  Int64.toInt_ofNat'

theorem toInt_fibonacciWord_of_le {index : ℕ} (le : index ≤ 92) :
    (fibonacciWord index).toInt = Nat.fib index := by
  have last : Nat.fib 92 < 2 ^ 63 := by norm_num
  exact Int64.toInt_ofNat_of_lt ((Nat.fib_mono le).trans_lt last)

end Table

/--
A kernel that answers with Fibonacci numbers wherever its table of `n + 2` slots fits so many pages.
-/
structure AnswersFibonacci (pages : ℕ) (answers : Int64 → Int64 → Prop) : Prop where
  /-- An answer is the Fibonacci number modulo `2 ^ 64`, and the number itself up to 92. -/
  modulo : ∀ n : Int64, 0 ≤ n.toInt → n.toInt ≤ fibonacciMax →
    heapStart + (n.toInt.toNat + 2) * 8 ≤ pages * pageSize →
    ∃ answer, answers n answer ∧ answer.toInt = (Nat.fib n.toInt.toNat : ℤ).bmod (2 ^ 64) ∧
      (n.toInt ≤ 92 → answer.toInt = Nat.fib n.toInt.toNat)
  /-- An answer is the sum of the two before it, as words add up. -/
  recurrence : ∀ n : Int64, 0 ≤ n.toInt → n.toInt + 2 ≤ fibonacciMax →
    heapStart + (n.toInt.toNat + 4) * 8 ≤ pages * pageSize →
    ∃ first second third, answers n first ∧ answers (n + 1) second ∧ answers (n + 2) third ∧
      third = second + first

theorem toInt_add_small (nonneg : 0 ≤ n.toInt) (le : n.toInt ≤ fibonacciMax) {step : ℕ}
    (step_le : step ≤ 2) : (n + Int64.ofNat step).toInt = n.toInt + step := by
  simp only [fibonacciMax] at le
  rw [Int64.toInt_add, Int64.toInt_ofNat_of_lt (by omega)]
  exact Int.bmod_eq_of_le (by omega) (by omega)

theorem AnswersFibonacci.of_word {pages : ℕ} {answers : Int64 → Int64 → Prop}
    (answer : ∀ n : Int64, 0 ≤ n.toInt → n.toInt ≤ fibonacciMax →
      pagesForTable ((n.toInt.toNat + 2) * 8) ≤ pages →
      answers n (Table.fibonacciWord n.toInt.toNat)) :
    AnswersFibonacci pages answers where
  modulo n nonneg le fits := by
    refine ⟨_, answer n nonneg le ((pagesForTable_le_iff _ _).mpr fits),
      Table.toInt_fibonacciWord _, fun small => Table.toInt_fibonacciWord_of_le ?_⟩
    omega
  recurrence n nonneg le fits := by
    have ahead : ∀ step : ℕ, step ≤ 2 →
        answers (n + Int64.ofNat step) (Table.fibonacciWord (n.toInt.toNat + step)) := by
      intro step step_le
      have sum := toInt_add_small nonneg (by omega) step_le
      have index : (n + Int64.ofNat step).toInt.toNat = n.toInt.toNat + step := by omega
      rw [← index]
      exact answer _ (by omega) (by omega) ((pagesForTable_le_iff _ _).mpr (by omega))
    have first := ahead 0 (by decide)
    rw [show Int64.ofNat 0 = 0 from rfl, Int64.add_zero] at first
    exact ⟨_, _, _, first, ahead 1 (by decide), ahead 2 (by decide),
      (Table.fibonacciWord_add n.toInt.toNat).symm⟩

namespace LinkedModule

theorem Called.eq_ok {called : Called} {value : Option Scalar}
    (answered : called.outcome = .ok value) : called.1 = .ok value := by
  obtain ⟨result, after⟩ := called
  cases result with
  | error fault => cases answered
  | ok found => cases answered; rfl

theorem call_fibonacci (valid : config.IsValid) (small : frames.AreSmall)
    (state : IsStateOf config (instanceOf config frames) live) (nonneg : 0 ≤ n.toInt)
    (le : n.toInt ≤ fibonacciMax)
    (fits : pagesForTable ((n.toInt.toNat + 2) * 8) ≤ config.maxPages.toNat) :
    (LinkedModule.call .fibonacci [.i64 n] live).1 =
      .ok (some (.i64 (Table.fibonacciWord n.toInt.toNat))) := by
  have accepted : domainFault? .fibonacci n = none :=
    (domainFault?_eq_none_iff rfl).mpr ⟨nonneg, le⟩
  have outcome : Called.outcome (LinkedModule.call .fibonacci [.i64 n] live) =
      (Verdict.fibonacci config.maxPages.toNat n).outcome .fibonacci n .i64 :=
    (call_verdict .fibonacci valid small state n).1
  rw [Verdict.fibonacci, accepted] at outcome
  simp only [Verdict.ofTable, if_pos fits] at outcome
  exact Called.eq_ok outcome

end LinkedModule

/--
Within every budget the reference answers with Fibonacci numbers, and so does the module that is
compiled for a valid configuration, whatever the memory of its instance holds at each question.
-/
theorem fibonacci_exact (config : Config) (valid : config.validate = .ok ()) :
    (∀ budget : TableBudget, AnswersFibonacci budget.maxPages.toNat
      fun n answer => Table.fibonacci budget n = .done answer) ∧
    ∃ bytes fresh, compile config = .ok bytes ∧ LinkedModule.ofModule? bytes = some fresh ∧
      LinkedModule.IsStateOf config fresh fresh ∧
      ∀ live : Int64 → LinkedModule, (∀ n, LinkedModule.IsStateOf config fresh (live n)) →
        AnswersFibonacci config.maxPages.toNat fun n answer =>
          (LinkedModule.call .fibonacci [.i64 n] (live n)).1 = .ok (some (.i64 answer)) := by
  refine ⟨fun budget => .of_word fun n => Table.fibonacci_eq_done, ?_⟩
  have isValid := Config.validate_eq_ok.mp valid
  obtain ⟨bytes, frames, small, compiled, linked, fresh⟩ := LinkedModule.exists_fresh isValid
  refine ⟨bytes, instanceOf config frames, compiled, linked, fresh, ?_⟩
  intro live state
  exact .of_word fun n => LinkedModule.call_fibonacci isValid small (state n)

theorem bmod_fib_ninety_three : (Nat.fib 93 : ℤ).bmod (2 ^ 64) = -6246583658587674878 := by
  have number : Nat.fib 93 = 12200160415121876738 := by norm_num
  rw [number]
  decide

/-- At 93 the number exceeds a signed word; both kernels answer with what it wraps to. -/
theorem fibonacci_exact_ninety_three : Config.default.validate = .ok () ∧
    ∃ bytes fresh, compile .default = .ok bytes ∧ LinkedModule.ofModule? bytes = some fresh ∧
      ∃ garbage : ByteArray, LinkedModule.IsStateOf .default fresh (fresh.withMemory garbage) ∧
        ∃ reference compiled : Int64, Table.fibonacci ⟨2⟩ 93 = .done reference ∧
          (LinkedModule.call .fibonacci [.i64 93] (fresh.withMemory garbage)).1 =
            .ok (some (.i64 compiled)) ∧
          reference.toInt = -6246583658587674878 ∧ compiled.toInt = -6246583658587674878 := by
  have valid : Config.default.validate = .ok () := by decide
  obtain ⟨reference, bytes, fresh, compiled, linked, state, answers⟩ :=
    fibonacci_exact .default valid
  obtain ⟨garbage, defined⟩ : ∃ garbage, garbage = extendBytes .empty 255 (2 * pageSize) :=
    ⟨_, rfl⟩
  have size : garbage.size = 2 * pageSize := by
    rw [defined, size_extendBytes, ByteArray.size_empty, Nat.zero_add]
  have littered : LinkedModule.IsStateOf .default fresh (fresh.withMemory garbage) :=
    state.withMemory (by decide) (by decide) size
  obtain ⟨first, answered, exact_first, _⟩ :=
    (reference ⟨2⟩).modulo 93 (by decide) (by decide) (by decide)
  obtain ⟨second, answered', exact_second, _⟩ :=
    (answers (fun _ => fresh.withMemory garbage) fun _ => littered).modulo 93 (by decide)
      (by decide) (by decide)
  exact ⟨valid, bytes, fresh, compiled, linked, garbage, littered, first, second, answered,
    answered', exact_first.trans bmod_fib_ninety_three,
    exact_second.trans bmod_fib_ninety_three⟩

end TableKernels
