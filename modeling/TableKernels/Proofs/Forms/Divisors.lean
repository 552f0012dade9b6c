import TableKernels.Proofs.Forms.Triangle

/-!
# Right angles and divisors

A line that crosses a side of the triangle at a right angle factors its value: such lines are
counted by the divisors below the square root. Modulo 2, a squarefree number has one such divisor
exactly when it is prime.
-/

namespace TableKernels.Forms

variable {a n x y z : ℤ}

/-- The divisors of a number below its square root. -/
def lesserDivisors (k : ℕ) : Finset ℕ := k.divisors.filter fun d => d * d < k

theorem mem_lesserDivisors {d k : ℕ} :
    d ∈ lesserDivisors k ↔ ∃ e, 0 < d ∧ d < e ∧ d * e = k := by
  simp only [lesserDivisors, Finset.mem_filter, Nat.mem_divisors]
  constructor
  · rintro ⟨⟨⟨e, rfl⟩, nonzero⟩, lt⟩
    have d_pos := Nat.pos_of_ne_zero (left_ne_zero_of_mul nonzero)
    exact ⟨e, d_pos, Nat.lt_of_mul_lt_mul_left lt, rfl⟩
  · rintro ⟨e, d_pos, lt, rfl⟩
    have product_pos := Nat.mul_pos d_pos (d_pos.trans lt)
    exact ⟨⟨Nat.dvd_mul_right d e, product_pos.ne'⟩, Nat.mul_lt_mul_of_pos_left lt d_pos⟩

theorem four_dvd_sub {a d e : ℤ} (residue : d * e % 4 = a % 4) (odd : d % 2 = 1) :
    4 ∣ e - a * d := by
  obtain ⟨m, rfl⟩ : ∃ m, d = 2 * m + 1 := ⟨d / 2, by omega⟩
  obtain ⟨t, same⟩ : 4 ∣ (2 * m + 1) * e - a := Int.dvd_of_emod_eq_zero (by omega)
  refine ⟨(2 * m + 1) * t - m * (m + 1) * e, ?_⟩
  rw [mul_sub, mul_left_comm, ← same]
  ring

theorem odd_of_mul_emod {d e : ℤ} (odd : d * e % 2 = 1) : d % 2 = 1 := by
  rcases Int.emod_two_eq_zero_or_one d with even | odd_d
  · rw [Int.mul_emod, even, zero_mul] at odd
    exact absurd odd (by decide)
  · exact odd_d

theorem mem_right_fixed (general : General a n) :
    (x, y, z) ∈ ((right a n).filter fun v => v.1 = v.2.1) ↔
      y = x ∧ x * (a * x + 4 * z) = n ∧ 0 < x ∧ 0 < (a - 2) * x + 2 * z := by
  rw [Finset.mem_filter, mem_right general]
  constructor
  · rintro ⟨⟨value, y_pos, side⟩, same⟩
    simp only at same
    subst same
    exact ⟨rfl, by linarith, y_pos, by linarith⟩
  · rintro ⟨rfl, value, x_pos, side⟩
    exact ⟨⟨by linarith, x_pos, by linarith⟩, rfl⟩

theorem mem_base_fixed (general : General a n) :
    (x, y, z) ∈ ((base a n).filter fun v => v.2.1 = -v.2.2) ↔
      y = -z ∧ a * x ^ 2 = n + 4 * z ^ 2 ∧ 0 < z ∧ a * x + 4 * z < 0 := by
  rw [Finset.mem_filter, mem_base general]
  constructor
  · rintro ⟨⟨value, y_lt, side⟩, same⟩
    simp only at same
    subst same
    exact ⟨rfl, by linarith, by omega, by omega⟩
  · rintro ⟨rfl, value, z_pos, side⟩
    exact ⟨⟨by linarith, by omega, by omega⟩, rfl⟩

/-- The lines at a right angle to the far side are the divisors `d` with `(4 - a) * d < k / d`. -/
theorem card_right_fixed {k : ℕ} (general : General a k) (residue : (k : ℤ) % 4 = a % 4) :
    ((right a k).filter fun v => v.1 = v.2.1).card =
      ((lesserDivisors k).filter fun d => (4 - a) * d < (k / d : ℕ)).card := by
  have pos := general.pos
  have lt_four := general.lt_four
  have odd_value := general.odd_value
  -- The line of the divisor `d` is `(d, d, z)`, where the other factor is `a * d + 4 * z`.
  refine Finset.card_nbij' (fun v => v.1.toNat)
    (fun d => ((d : ℤ), (d : ℤ), (((k / d : ℕ) : ℤ) - a * d) / 4)) ?_ ?_ ?_ ?_
  · rintro ⟨x, y, z⟩ mem
    obtain ⟨rfl, value, x_pos, side⟩ := (mem_right_fixed general).mp mem
    lift y to ℕ using x_pos.le
    have other_pos : (y : ℤ) < a * y + 4 * z := by nlinarith
    obtain ⟨e, e_eq⟩ := Int.eq_ofNat_of_zero_le (a := a * y + 4 * z) (by linarith)
    have product : y * e = k := by
      zify
      rw [← e_eq, ← value]
    have quotient : k / y = e := by
      rw [← product, Nat.mul_div_cancel_left e (by exact_mod_cast x_pos)]
    rw [Finset.mem_coe, Finset.mem_filter, mem_lesserDivisors]
    simp only [Int.toNat_natCast, quotient]
    refine ⟨⟨e, by exact_mod_cast x_pos, ?_, product⟩, ?_⟩
    · zify
      rw [← e_eq]
      exact other_pos
    · rw [← e_eq]
      linarith
  · rintro d mem
    rw [Finset.mem_coe, Finset.mem_filter, mem_lesserDivisors] at mem
    rcases mem with ⟨⟨e, d_pos, lt, rfl⟩, far⟩
    rw [Nat.mul_div_cancel_left e d_pos] at far
    push_cast at residue odd_value
    obtain ⟨z, same⟩ := four_dvd_sub residue (odd_of_mul_emod odd_value)
    have e_eq : (e : ℤ) = a * d + 4 * z := by linarith
    rw [Finset.mem_coe, mem_right_fixed general, Nat.mul_div_cancel_left e d_pos, same,
      Int.mul_ediv_cancel_left z four_ne_zero, ← e_eq]
    exact ⟨rfl, (Nat.cast_mul d e).symm, by exact_mod_cast d_pos, by linarith⟩
  · rintro ⟨x, y, z⟩ mem
    obtain ⟨rfl, value, x_pos, side⟩ := (mem_right_fixed general).mp mem
    have quotient : (k : ℤ) / y = a * y + 4 * z := by
      rw [← value, Int.mul_ediv_cancel_left _ x_pos.ne']
    simp only [Prod.mk.injEq]
    push_cast
    rw [Int.toNat_of_nonneg x_pos.le, quotient]
    refine ⟨rfl, rfl, ?_⟩
    omega
  · rintro d _
    simp

/-- The lines at a right angle to the base are the divisors `d` with `k / d < 3 * d`. -/
theorem card_base_fixed {k : ℕ} (general : General 1 k) (residue : k % 4 = 1) :
    ((base 1 k).filter fun v => v.2.1 = -v.2.2).card =
      ((lesserDivisors k).filter fun d => k / d < 3 * d).card := by
  have odd_value := general.odd_value
  -- The line `(x, -z, z)` factors its value as `(-x - 2 * z) * (-x + 2 * z)`.
  refine Finset.card_nbij' (fun v => (-v.1 - 2 * v.2.2).toNat)
    (fun d => (-(((k / d : ℕ) : ℤ) + d) / 2, -((((k / d : ℕ) : ℤ) - d) / 4),
      (((k / d : ℕ) : ℤ) - d) / 4)) ?_ ?_ ?_ ?_
  · rintro ⟨x, y, z⟩ mem
    obtain ⟨rfl, value, z_pos, side⟩ := (mem_base_fixed general).mp mem
    obtain ⟨d, d_eq⟩ := Int.eq_ofNat_of_zero_le (a := -x - 2 * z) (by linarith)
    obtain ⟨e, e_eq⟩ := Int.eq_ofNat_of_zero_le (a := -x + 2 * z) (by linarith)
    have product : d * e = k := by
      zify
      rw [← d_eq, ← e_eq]
      linarith
    have d_pos : 0 < d := by omega
    have quotient : k / d = e := by
      rw [← product, Nat.mul_div_cancel_left e d_pos]
    rw [Finset.mem_coe, Finset.mem_filter, mem_lesserDivisors]
    simp only [d_eq, Int.toNat_natCast, quotient]
    exact ⟨⟨e, d_pos, by omega, product⟩, by omega⟩
  · rintro d mem
    rw [Finset.mem_coe, Finset.mem_filter, mem_lesserDivisors] at mem
    rcases mem with ⟨⟨e, d_pos, lt, rfl⟩, near⟩
    rw [Nat.mul_div_cancel_left e d_pos] at near
    push_cast at odd_value
    have odd_d := odd_of_mul_emod odd_value
    obtain ⟨z, same⟩ := four_dvd_sub (a := 1) (d := d) (e := e) (by omega) odd_d
    rw [one_mul] at same
    have e_eq : (e : ℤ) = d + 4 * z := by linarith
    have half : -((e : ℤ) + d) / 2 = -(d + 2 * z) := by omega
    rw [Finset.mem_coe, mem_base_fixed general, Nat.mul_div_cancel_left e d_pos, half, same,
      Int.mul_ediv_cancel_left z four_ne_zero]
    refine ⟨rfl, ?_, by omega, by omega⟩
    push_cast
    rw [e_eq]
    ring
  · rintro ⟨x, y, z⟩ mem
    obtain ⟨rfl, value, z_pos, side⟩ := (mem_base_fixed general).mp mem
    have d_pos : 0 < -x - 2 * z := by linarith
    have factors : (k : ℤ) = (-x - 2 * z) * (-x + 2 * z) := by linarith
    have quotient : (k : ℤ) / (-x - 2 * z) = -x + 2 * z := by
      rw [factors, Int.mul_ediv_cancel_left _ d_pos.ne']
    simp only [Prod.mk.injEq]
    push_cast
    rw [Int.toNat_of_nonneg d_pos.le, quotient]
    omega
  · rintro d mem
    rw [Finset.mem_coe, Finset.mem_filter, mem_lesserDivisors] at mem
    rcases mem with ⟨⟨e, d_pos, lt, rfl⟩, near⟩
    simp only [Nat.mul_div_cancel_left e d_pos]
    push_cast at odd_value
    have odd_d := odd_of_mul_emod odd_value
    obtain ⟨z, same⟩ := four_dvd_sub (a := 1) (d := d) (e := e) (by omega) odd_d
    omega

/-! ## Primes -/

theorem even_card_divisors {m : ℕ} (squarefree : Squarefree m) (two_le : 2 ≤ m) :
    2 ∣ m.divisors.card := by
  obtain ⟨p, prime, p_dvd⟩ := Nat.exists_prime_and_dvd (n := m) (by omega)
  obtain ⟨rest, rfl⟩ := p_dvd
  have coprime := Nat.coprime_of_squarefree_mul squarefree
  rw [Nat.Coprime.card_divisors_mul coprime, prime.divisors, Finset.card_pair prime.one_lt.ne]
  exact Nat.dvd_mul_right 2 _

/-- Each divisor below the square root has a partner above. -/
theorem card_divisors_eq {k : ℕ} (pos : 0 < k) (nonsquare : ¬ IsSquare k) :
    k.divisors.card = 2 * (lesserDivisors k).card := by
  have split := Finset.card_filter_add_card_filter_not (s := k.divisors) (fun d => d * d < k)
  have mirrored : (k.divisors.filter fun d => ¬ d * d < k).card = (lesserDivisors k).card := by
    refine Finset.card_nbij' (fun d => k / d) (fun d => k / d) ?_ ?_ ?_ ?_
    · rintro d mem
      rw [Finset.mem_coe, Finset.mem_filter, Nat.mem_divisors] at mem
      rcases mem with ⟨⟨⟨e, rfl⟩, _⟩, ge⟩
      have d_pos := Nat.pos_of_mul_pos_right pos
      rw [Finset.mem_coe, mem_lesserDivisors]
      dsimp only
      rw [Nat.mul_div_cancel_left e d_pos]
      have le : e ≤ d := Nat.le_of_mul_le_mul_left (Nat.not_lt.mp ge) d_pos
      have different : e ≠ d := by
        rintro rfl
        exact nonsquare ⟨e, rfl⟩
      exact ⟨d, Nat.pos_of_mul_pos_left pos, by omega, Nat.mul_comm e d⟩
    · rintro d mem
      rw [Finset.mem_coe, mem_lesserDivisors] at mem
      rcases mem with ⟨e, d_pos, lt, rfl⟩
      rw [Finset.mem_coe, Finset.mem_filter, Nat.mem_divisors]
      dsimp only
      rw [Nat.mul_div_cancel_left e d_pos]
      exact ⟨⟨Nat.dvd_mul_left e d, pos.ne'⟩, by nlinarith⟩
    · rintro d mem
      rw [Finset.mem_coe, Finset.mem_filter, Nat.mem_divisors] at mem
      exact Nat.div_div_self mem.1.1 mem.1.2
    · rintro d mem
      rw [Finset.mem_coe, lesserDivisors, Finset.mem_filter, Nat.mem_divisors] at mem
      exact Nat.div_div_self mem.1.1 mem.1.2
  rw [mirrored] at split
  unfold lesserDivisors at split ⊢
  omega

theorem lesserDivisors_prime {p : ℕ} (prime : p.Prime) : lesserDivisors p = {1} := by
  ext d
  rw [mem_lesserDivisors, Finset.mem_singleton]
  constructor
  · rintro ⟨e, d_pos, lt, same⟩
    rcases (Nat.dvd_prime prime).mp (Dvd.intro e same) with one | all
    · exact one
    · subst all
      nlinarith
  · rintro rfl
    exact ⟨p, one_pos, prime.one_lt, one_mul p⟩

/-- The parity of the divisors below the square root decides whether a squarefree number is prime. -/
theorem odd_card_lesserDivisors_iff {k : ℕ} (squarefree : Squarefree k) (two_le : 2 ≤ k) :
    (lesserDivisors k).card % 2 = 1 ↔ k.Prime := by
  constructor
  · intro odd
    by_contra composite
    obtain ⟨p, prime, rest, rfl⟩ := Nat.exists_prime_and_dvd (n := k) (by omega)
    have rest_two_le : 2 ≤ rest := by
      have nonzero := squarefree.ne_zero
      rcases rest with _ | _ | rest
      · simp at nonzero
      · simp [prime] at composite
      · omega
    have coprime := Nat.coprime_of_squarefree_mul squarefree
    have nonsquare : ¬ IsSquare (p * rest) := by
      rintro ⟨root, same⟩
      have unit := squarefree root (Dvd.intro 1 (by rw [mul_one, same]))
      rw [Nat.isUnit_iff] at unit
      rw [unit] at same
      omega
    -- A prime and a coprime rest make the number of all divisors a multiple of four.
    have count := card_divisors_eq (by omega) nonsquare
    rw [Nat.Coprime.card_divisors_mul coprime, prime.divisors,
      Finset.card_pair prime.one_lt.ne] at count
    have even := even_card_divisors (squarefree.of_mul_right) rest_two_le
    omega
  · intro prime
    rw [lesserDivisors_prime prime]
    rfl

end TableKernels.Forms
