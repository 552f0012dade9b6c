import TableKernels.Proofs.Table.Toggle

/-!
# Clearing the multiples of squares

A number that is still flagged when its turn comes is prime, since every prime below it has had its
turn. So the numbers whose squares are cleared are the primes from 5 on, and a number that keeps its
flag is squarefree with an odd number of representations: a prime from 5 on.
-/

namespace TableKernels.Table

open Forms

variable {k limit size step r : ℕ} {table : Array Bool}

theorem clearSteps_beyond (beyond : size ≤ k) : clearSteps size step k table = .done table := by
  unfold clearSteps
  rw [if_neg (by omega)]
  rfl

theorem clearSteps_within (within : k < table.size) (step_pos : 0 < step) :
    clearSteps table.size step k table =
      clearSteps table.size step (k + step) (table.setIfInBounds k false) := by
  conv_lhs => unfold clearSteps
  rw [if_pos ⟨within, step_pos⟩, Run.setEntry_eq_done within, Run.done_bind]

/-- Clearing in steps from an index clears the numbers that are whole steps beyond it. -/
theorem clearSteps_flags (step_pos : 0 < step) (index : ℕ) (table : Array Bool) :
    ∃ result, clearSteps table.size step index table = .done result ∧
      result.size = table.size ∧
      ∀ k < table.size, flag result k =
        (flag table k && !decide (index ≤ k ∧ step ∣ k - index)) := by
  rcases Nat.lt_or_ge index table.size with within | beyond
  · obtain ⟨result, finished, result_size, flags⟩ :=
      clearSteps_flags step_pos (index + step) (table.setIfInBounds index false)
    rw [Array.size_setIfInBounds] at finished result_size flags
    refine ⟨result, (clearSteps_within within step_pos).trans finished, result_size, ?_⟩
    intro k k_lt
    rw [flags k k_lt, flag_set false within]
    split
    · next same =>
      subst same
      simp
    -- Beyond the index itself, whole steps from it are whole steps from the next one.
    · next different =>
      congr 2
      rw [decide_eq_decide]
      constructor
      · rintro ⟨le, dvd⟩
        refine ⟨by omega, ?_⟩
        have : k - index = k - (index + step) + step := by omega
        rw [this]
        exact Nat.dvd_add dvd (dvd_refl step)
      · rintro ⟨le, dvd⟩
        have step_le := Nat.le_of_dvd (by omega) dvd
        refine ⟨by omega, ?_⟩
        rw [← Nat.sub_sub]
        exact Nat.dvd_sub dvd (dvd_refl step)
  · refine ⟨table, clearSteps_beyond beyond, rfl, ?_⟩
    intro k k_lt
    rw [decide_eq_false (by omega), Bool.not_false, Bool.and_true]
termination_by table.size - index
decreasing_by
  rw [Array.size_setIfInBounds]
  omega

theorem clearSquares_beyond (r_le : r ≤ 0x80000000) (beyond : size ≤ r * r) :
    clearSquares size r table = .done table := by
  have square := Nat.mul_self_le_mul_self r_le
  unfold clearSquares
  rw [Run.mulWord_eq_done (by omega), Run.done_bind, dif_neg (Nat.not_lt.mpr beyond)]
  rfl

theorem clearSquares_skip (small : table.size ≤ 0x80000000) (within : r * r < table.size)
    (unflagged : flag table r = false) :
    clearSquares table.size r table = clearSquares table.size (r + 1) table := by
  have inside : r < table.size := (Nat.le_mul_self r).trans_lt within
  conv_lhs => unfold clearSquares
  rw [Run.mulWord_eq_done (by omega), Run.done_bind, dif_pos within, Run.entry_eq_done inside,
    Run.done_bind, ← flag_eq inside, unflagged, if_neg Bool.false_ne_true, Run.pure_eq_done,
    Run.done_bind, Run.addWord_eq_done (by omega)]
  simp only [Run.done_bind]

theorem clearSquares_take {cleared : Array Bool} (small : table.size ≤ 0x80000000)
    (within : r * r < table.size) (flagged : flag table r = true)
    (finished : clearSteps table.size (r * r) (r * r) table = .done cleared) :
    clearSquares table.size r table = clearSquares table.size (r + 1) cleared := by
  have inside : r < table.size := (Nat.le_mul_self r).trans_lt within
  conv_lhs => unfold clearSquares
  rw [Run.mulWord_eq_done (by omega), Run.done_bind, dif_pos within, Run.entry_eq_done inside,
    Run.done_bind, ← flag_eq inside, flagged, if_pos rfl, finished, Run.done_bind,
    Run.addWord_eq_done (by omega)]
  simp only [Run.done_bind]

/-! ## Primes remain -/

/-- What a flag says when the squares of the primes from 5 up to `r` have been cleared. -/
def Sifted (r k : ℕ) : Prop :=
  (representations k).card % 2 = 1 ∧ ∀ p, p.Prime → 5 ≤ p → p < r → ¬ p * p ∣ k

theorem coprime_of_odd_card (odd : (representations k).card % 2 = 1) :
    5 ≤ k ∧ k % 2 = 1 ∧ k % 3 ≠ 0 := by
  obtain ⟨⟨x, y⟩, mem⟩ := Finset.card_pos.mp (by omega : 0 < (representations k).card)
  rcases mem_representations.mp mem with ⟨x_pos, y_pos, represents⟩
  have x_sq := pow_pos x_pos 2
  have y_sq := pow_pos y_pos 2
  unfold Represents at represents
  omega

theorem coprime_of_prime (prime : k.Prime) (le : 5 ≤ k) : k % 2 = 1 ∧ k % 3 ≠ 0 := by
  refine ⟨?_, ?_⟩
  · rcases prime.eq_two_or_odd with same | odd
    · omega
    · exact odd
  · intro zero
    have := (Nat.prime_dvd_prime_iff_eq Nat.prime_three prime).mp (Nat.dvd_of_mod_eq_zero zero)
    omega

/-- Below the square of `r`, what has passed the sieve up to `r` is prime. -/
theorem sifted_iff_prime (k_lt : k < r * r) : Sifted r k ↔ 5 ≤ k ∧ k.Prime := by
  constructor
  · rintro ⟨odd, sifted⟩
    rcases coprime_of_odd_card odd with ⟨le, coprime⟩
    have squarefree : Squarefree k := by
      rw [Nat.squarefree_iff_prime_squarefree]
      intro p prime dvd
      have p_lt : p < r := Nat.mul_self_lt_mul_self_iff.mp
        ((Nat.le_of_dvd (by omega) dvd).trans_lt k_lt)
      have p_dvd := dvd_of_mul_left_dvd dvd
      refine sifted p prime ?_ p_lt dvd
      -- The squares of 2 and 3 need no turn: neither divides a number with an odd count.
      by_contra small
      have cases : p = 2 ∨ p = 3 := by
        have two_le := prime.two_le
        have four : p ≠ 4 := by
          rintro rfl
          exact absurd prime (by decide)
        omega
      rcases cases with rfl | rfl
      · omega
      · omega
    exact ⟨le, (odd_card_representations_iff coprime (by omega) squarefree).mp odd⟩
  · rintro ⟨le, prime⟩
    have squarefree : Squarefree k := prime.prime.squarefree
    refine ⟨(odd_card_representations_iff (coprime_of_prime prime le) (by omega)
      squarefree).mpr prime, ?_⟩
    intro p p_prime _ _ dvd
    exact p_prime.ne_one (Nat.isUnit_iff.mp (squarefree p dvd))

theorem sifted_succ_of_prime (prime : r.Prime) (le : 5 ≤ r) :
    Sifted (r + 1) k ↔ Sifted r k ∧ ¬ r * r ∣ k := by
  constructor
  · rintro ⟨odd, sifted⟩
    exact ⟨⟨odd, fun p p_prime p_le p_lt => sifted p p_prime p_le (by omega)⟩,
      sifted r prime le (by omega)⟩
  · rintro ⟨⟨odd, sifted⟩, not_dvd⟩
    refine ⟨odd, fun p p_prime p_le p_lt => ?_⟩
    rcases Nat.lt_succ_iff_lt_or_eq.mp p_lt with lt | rfl
    · exact sifted p p_prime p_le lt
    · exact not_dvd

theorem sifted_succ_of_not_prime (composite : ¬ r.Prime) : Sifted (r + 1) k ↔ Sifted r k := by
  constructor
  · rintro ⟨odd, sifted⟩
    exact ⟨odd, fun p p_prime p_le p_lt => sifted p p_prime p_le (by omega)⟩
  · rintro ⟨odd, sifted⟩
    refine ⟨odd, fun p p_prime p_le p_lt => ?_⟩
    rcases Nat.lt_succ_iff_lt_or_eq.mp p_lt with lt | rfl
    · exact sifted p p_prime p_le lt
    · exact absurd p_prime composite

/-- From a table sifted up to `r`, the turns from `r` on leave the flags of the primes from 5 on. -/
theorem clearSquares_flags (r : ℕ) (le : 5 ≤ r) (r_le : r ≤ 0x80000000) (table : Array Bool)
    (small : table.size ≤ 0x80000000)
    (sifted : ∀ k < table.size, flag table k = true ↔ Sifted r k) :
    ∃ result, clearSquares table.size r table = .done result ∧ result.size = table.size ∧
      ∀ k < table.size, flag result k = true ↔ 5 ≤ k ∧ k.Prime := by
  rcases Nat.lt_or_ge (r * r) table.size with within | beyond
  · have r_lt : r < r * r := by nlinarith
    have inside := r_lt.trans within
    -- The flag that is read at `r` is right already, as `r` is below its own square.
    have turn : flag table r = true ↔ r.Prime := by
      rw [sifted r inside, sifted_iff_prime r_lt, and_iff_right le]
    rcases Bool.eq_false_or_eq_true (flag table r) with flagged | unflagged
    · have prime := turn.mp flagged
      obtain ⟨cleared, finished, cleared_size, flags⟩ :=
        clearSteps_flags (Nat.mul_pos prime.pos prime.pos) (r * r) table
      have cleared_sifted : ∀ k < cleared.size, flag cleared k = true ↔ Sifted (r + 1) k := by
        intro k k_lt
        rw [cleared_size] at k_lt
        rw [flags k k_lt, Bool.and_eq_true, sifted k k_lt, sifted_succ_of_prime prime le]
        refine and_congr_right fun passed => ?_
        have k_pos := (coprime_of_odd_card passed.1).1
        simp only [Bool.not_eq_true', decide_eq_false_iff_not]
        -- The multiples of a number from itself on are all its positive multiples.
        refine not_congr ⟨?_, ?_⟩
        · rintro ⟨ge, dvd⟩
          exact (Nat.dvd_sub_iff_left ge (dvd_refl _)).mp dvd
        · intro dvd
          have ge := Nat.le_of_dvd (by omega) dvd
          exact ⟨ge, Nat.dvd_sub dvd (dvd_refl _)⟩
      obtain ⟨result, rest, result_size, primes⟩ := clearSquares_flags (r + 1) (by omega)
        (by omega) cleared (by omega) cleared_sifted
      rw [cleared_size] at rest result_size primes
      exact ⟨result, (clearSquares_take small within flagged finished).trans rest, result_size,
        primes⟩
    · have composite : ¬ r.Prime := fun prime => by simp [turn.mpr prime] at unflagged
      obtain ⟨result, rest, result_size, primes⟩ := clearSquares_flags (r + 1) (by omega)
        (by omega) table small
        (fun k k_lt => (sifted k k_lt).trans (sifted_succ_of_not_prime composite).symm)
      exact ⟨result, (clearSquares_skip small within unflagged).trans rest, result_size, primes⟩
  · refine ⟨table, clearSquares_beyond r_le beyond, rfl, ?_⟩
    intro k k_lt
    rw [sifted k k_lt, sifted_iff_prime (k_lt.trans_le beyond)]
termination_by table.size - r
decreasing_by
  · rw [cleared_size]
    omega
  · omega

/-- Both passes finish, and they leave the flags of the primes from 5 on. -/
theorem sieveTable_flags (limit_lt : limit < 0x80000000) :
    ∃ result, sieveTable limit (Array.replicate (limit + 1) false) = .done result ∧
      result.size = limit + 1 ∧ ∀ k ≤ limit, flag result k = true ↔ 5 ≤ k ∧ k.Prime := by
  obtain ⟨toggled, through, size, parity⟩ := toggleRows_parity limit_lt
  -- Below 5 no square has been cleared, so the parity alone is what has been sifted.
  have sifted : ∀ k < toggled.size, flag toggled k = true ↔ Sifted 5 k := by
    intro k k_lt
    rw [parity k (by omega), decide_eq_true_eq, Sifted]
    refine (and_iff_left ?_).symm
    intro p _ le lt
    omega
  obtain ⟨result, finished, result_size, primes⟩ :=
    clearSquares_flags 5 (le_refl 5) (by norm_num) toggled (by omega) sifted
  refine ⟨result, ?_, result_size.trans size, fun k k_le => primes k (by omega)⟩
  rw [sieveTable, through, Run.done_bind, finished]

end TableKernels.Table
