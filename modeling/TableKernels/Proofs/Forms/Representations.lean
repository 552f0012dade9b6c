import TableKernels.Proofs.Forms.Divisors

/-!
# Representations by the three forms

A number coprime to 6 is tried against one of the forms `4 * x ^ 2 + y ^ 2`, `3 * x ^ 2 + y ^ 2` and
`3 * x ^ 2 - y ^ 2`, by its residue modulo 12. The parity of its representations is the parity of
its divisors below the square root, so it decides whether a squarefree number is prime.
-/

namespace TableKernels.Forms

/-- The form that belongs to the residue of `k` takes the value `k` at `x` and `y`. -/
def Represents (x y k : ℕ) : Prop :=
  (k % 12 = 1 ∨ k % 12 = 5) ∧ 4 * x ^ 2 + y ^ 2 = k ∨
    k % 12 = 7 ∧ 3 * x ^ 2 + y ^ 2 = k ∨
    k % 12 = 11 ∧ y < x ∧ 3 * x ^ 2 = k + y ^ 2

instance (x y k : ℕ) : Decidable (Represents x y k) := by
  unfold Represents
  infer_instance

/-- The pairs of positive numbers at which a form takes the value `k`. -/
def representations (k : ℕ) : Finset (ℕ × ℕ) :=
  (Finset.Icc 1 k ×ˢ Finset.Icc 1 k).filter fun pair => Represents pair.1 pair.2 k

variable {x y k : ℕ}

theorem Represents.sq_le (represents : Represents x y k) : x ^ 2 ≤ k ∧ y ^ 2 ≤ k := by
  rcases represents with ⟨_, value⟩ | ⟨_, value⟩ | ⟨_, lt, value⟩
  · omega
  · omega
  · have := Nat.pow_le_pow_left lt.le 2
    omega

theorem mem_representations :
    (x, y) ∈ representations k ↔ 0 < x ∧ 0 < y ∧ Represents x y k := by
  simp only [representations, Finset.mem_filter, Finset.mem_product, Finset.mem_Icc]
  constructor
  · rintro ⟨⟨⟨x_pos, _⟩, y_pos, _⟩, represents⟩
    exact ⟨x_pos, y_pos, represents⟩
  · rintro ⟨x_pos, y_pos, represents⟩
    have bounds := represents.sq_le
    have x_le := Nat.le_self_pow two_ne_zero x
    have y_le := Nat.le_self_pow two_ne_zero y
    exact ⟨⟨⟨x_pos, by omega⟩, y_pos, by omega⟩, represents⟩

theorem represents_one (residue : k % 12 = 1 ∨ k % 12 = 5) :
    Represents x y k ↔ 4 * x ^ 2 + y ^ 2 = k := by
  unfold Represents
  omega

theorem represents_seven (residue : k % 12 = 7) : Represents x y k ↔ 3 * x ^ 2 + y ^ 2 = k := by
  unfold Represents
  omega

theorem represents_eleven (residue : k % 12 = 11) :
    Represents x y k ↔ y < x ∧ 3 * x ^ 2 = k + y ^ 2 := by
  unfold Represents
  omega

theorem general_one (residue : k % 4 = 1) (nonsquare : ¬ IsSquare k) : General 1 k where
  pos := by norm_num
  lt_four := by norm_num
  odd_value := by omega
  odd_coefficient := by norm_num
  not_multiple_of_square := by
    intro x value
    apply nonsquare
    refine ⟨x.natAbs, ?_⟩
    zify
    rw [← value, abs_mul_abs_self]
    ring

theorem general_three (odd : k % 2 = 1) (coprime : k % 3 ≠ 0) : General 3 k where
  pos := by norm_num
  lt_four := by norm_num
  odd_value := by omega
  odd_coefficient := by norm_num
  not_multiple_of_square := by
    intro x value
    omega

theorem sq_emod_three (z : ℤ) : z * z % 3 = 0 ∨ z * z % 3 = 1 := by
  have rests : z % 3 = 0 ∨ z % 3 = 1 ∨ z % 3 = 2 := by omega
  rcases rests with rest | rest | rest
  · rw [Int.mul_emod, rest]
    decide
  · rw [Int.mul_emod, rest]
    decide
  · rw [Int.mul_emod, rest]
    decide

theorem sq_emod_four (z : ℤ) : z % 2 = 0 ∧ z ^ 2 % 4 = 0 ∨ z % 2 = 1 ∧ z ^ 2 % 4 = 1 := by
  rcases Int.even_or_odd' z with ⟨half, rfl | rfl⟩
  · left
    ring_nf
    omega
  · right
    ring_nf
    omega

/-! ## Lines through the right angle -/

theorem card_corner_one (residue : k % 12 = 1 ∨ k % 12 = 5) (general : General 1 k) :
    (corner 1 k).card = (representations k).card := by
  refine Finset.card_nbij' (fun v => (v.2.1.toNat, v.1.toNat))
    (fun pair => ((pair.2 : ℤ), (pair.1 : ℤ), (pair.1 : ℤ))) ?_ ?_ ?_ ?_
  · rintro ⟨x, y, z⟩ mem
    rw [Finset.mem_coe, mem_corner general] at mem
    rcases mem with ⟨value, x_pos, y_pos, rfl⟩
    lift x to ℕ using x_pos.le
    lift z to ℕ using y_pos.le
    rw [Finset.mem_coe, mem_representations, represents_one residue]
    refine ⟨by simpa using y_pos, by simpa using x_pos, ?_⟩
    zify
    simp only [Int.toNat_natCast]
    linarith
  · rintro ⟨x, y⟩ mem
    rw [Finset.mem_coe, mem_representations, represents_one residue] at mem
    rcases mem with ⟨x_pos, y_pos, value⟩
    rw [Finset.mem_coe, mem_corner general]
    zify at value
    exact ⟨by linarith, by exact_mod_cast y_pos, by exact_mod_cast x_pos, rfl⟩
  · rintro ⟨x, y, z⟩ mem
    rw [Finset.mem_coe, mem_corner general] at mem
    rcases mem with ⟨value, x_pos, y_pos, rfl⟩
    simp [x_pos.le, y_pos.le]
  · rintro ⟨x, y⟩ _
    simp

theorem even_of_value_seven (residue : k % 12 = 7) (value : 3 * x ^ 2 + y ^ 2 = k) : 2 ∣ y := by
  have square_x := sq_emod_four x
  have square_y := sq_emod_four y
  zify at value
  omega

theorem card_corner_three (residue : k % 12 = 7) (general : General 3 k) :
    (corner 3 k).card = (representations k).card := by
  -- Here `4 * y * z` is the square of `2 * y`, the even member of the pair.
  refine Finset.card_nbij' (fun v => (v.1.toNat, 2 * v.2.1.toNat))
    (fun pair => ((pair.1 : ℤ), ((pair.2 / 2 : ℕ) : ℤ), ((pair.2 / 2 : ℕ) : ℤ))) ?_ ?_ ?_ ?_
  · rintro ⟨x, y, z⟩ mem
    rw [Finset.mem_coe, mem_corner general] at mem
    rcases mem with ⟨value, x_pos, y_pos, rfl⟩
    lift x to ℕ using x_pos.le
    lift z to ℕ using y_pos.le
    rw [Finset.mem_coe, mem_representations, represents_seven residue]
    refine ⟨by simpa using x_pos, by simpa using y_pos, ?_⟩
    zify
    simp only [Int.toNat_natCast]
    linarith
  · rintro ⟨x, y⟩ mem
    rw [Finset.mem_coe, mem_representations, represents_seven residue] at mem
    rcases mem with ⟨x_pos, y_pos, value⟩
    obtain ⟨half, rfl⟩ := even_of_value_seven residue value
    rw [Finset.mem_coe, mem_corner general]
    simp only [Nat.mul_div_cancel_left half two_pos]
    zify at value
    exact ⟨by linarith, by exact_mod_cast x_pos, by omega, trivial⟩
  · rintro ⟨x, y, z⟩ mem
    rw [Finset.mem_coe, mem_corner general] at mem
    rcases mem with ⟨value, x_pos, y_pos, rfl⟩
    simp [x_pos.le, y_pos.le]
  · rintro ⟨x, y⟩ mem
    rw [Finset.mem_coe, mem_representations, represents_seven residue] at mem
    obtain ⟨half, rfl⟩ := even_of_value_seven residue mem.2.2
    simp

theorem corner_three_empty (residue : k % 12 = 11) (general : General 3 k) : corner 3 k = ∅ := by
  refine Finset.eq_empty_of_forall_notMem ?_
  rintro ⟨x, y, z⟩ mem
  rw [mem_corner general] at mem
  rcases mem with ⟨value, _, _, rfl⟩
  have square := sq_emod_three z
  have : 4 * z * z = 3 * (z * z) + z * z := by ring
  omega

/-! ## Lines at a right angle to the base -/

theorem base_three_empty (residue : k % 12 = 7) (general : General 3 k) :
    ((base 3 k).filter fun v => v.2.1 = -v.2.2) = ∅ := by
  refine Finset.eq_empty_of_forall_notMem ?_
  rintro ⟨x, y, z⟩ mem
  rw [mem_base_fixed general] at mem
  rcases mem with ⟨_, value, _, _⟩
  have square := sq_emod_three z
  rw [← sq] at square
  omega

theorem odd_iff_of_value_eleven {x y : ℤ} (residue : k % 12 = 11)
    (value : 3 * x ^ 2 = k + y ^ 2) : x % 2 = 1 ↔ y % 2 = 0 := by
  have square_x := sq_emod_four x
  have square_y := sq_emod_four y
  omega

/-- The lines that meet the base at its far end stand for the representations with an even `y`. -/
theorem card_base_near (residue : k % 12 = 11) (general : General 3 k) :
    (((base 3 k).filter fun v => v.2.1 = -v.2.2).filter fun v => 2 * v.2.2 < -v.1).card =
      ((representations k).filter fun pair => pair.2 % 2 = 0).card := by
  -- A line `(x, -z, z)` has `3 * x ^ 2 = k + (2 * z) ^ 2`.
  refine Finset.card_nbij' (fun v => ((-v.1).toNat, (2 * v.2.2).toNat))
    (fun pair => (-(pair.1 : ℤ), -((pair.2 : ℤ) / 2), (pair.2 : ℤ) / 2)) ?_ ?_ ?_ ?_
  · rintro ⟨x, y, z⟩ mem
    rw [Finset.mem_coe, Finset.mem_filter, mem_base_fixed general] at mem
    rcases mem with ⟨⟨rfl, value, z_pos, _⟩, near⟩
    rw [Finset.mem_coe, Finset.mem_filter, mem_representations, represents_eleven residue]
    dsimp only at near ⊢
    refine ⟨⟨by omega, by omega, by omega, ?_⟩, by omega⟩
    zify
    rw [Int.toNat_of_nonneg (by omega), Int.toNat_of_nonneg (by omega)]
    linarith
  · rintro ⟨x, y⟩ mem
    rw [Finset.mem_coe, Finset.mem_filter, mem_representations, represents_eleven residue] at mem
    rcases mem with ⟨⟨x_pos, y_pos, lt, value⟩, even⟩
    obtain ⟨half, rfl⟩ := Nat.dvd_of_mod_eq_zero even
    rw [Finset.mem_coe, Finset.mem_filter, mem_base_fixed general]
    zify at value
    push_cast
    rw [Int.mul_ediv_cancel_left _ two_ne_zero]
    exact ⟨⟨rfl, by linarith, by omega, by omega⟩, by omega⟩
  · rintro ⟨x, y, z⟩ mem
    rw [Finset.mem_coe, Finset.mem_filter, mem_base_fixed general] at mem
    rcases mem with ⟨⟨rfl, value, z_pos, _⟩, near⟩
    dsimp only at near ⊢
    simp only [Prod.mk.injEq]
    omega
  · rintro ⟨x, y⟩ mem
    rw [Finset.mem_coe, Finset.mem_filter] at mem
    have even := mem.2
    simp only [Prod.mk.injEq]
    omega

/-- The partner of a pair under the automorphism of `3 * x ^ 2 - y ^ 2` that is its own inverse. -/
def turn (x y : ℤ) : ℤ × ℤ := (2 * x - y, 3 * x - 2 * y)

theorem turn_value (x y : ℤ) : 3 * (turn x y).1 ^ 2 - (turn x y).2 ^ 2 = 3 * x ^ 2 - y ^ 2 := by
  unfold turn
  ring

/-- The other lines stand, through their partners, for the representations with an odd `y`. -/
theorem card_base_far (residue : k % 12 = 11) (general : General 3 k) :
    (((base 3 k).filter fun v => v.2.1 = -v.2.2).filter fun v => ¬ 2 * v.2.2 < -v.1).card =
      ((representations k).filter fun pair => ¬ pair.2 % 2 = 0).card := by
  refine Finset.card_nbij'
    (fun v => ((turn (-v.1) (2 * v.2.2)).1.toNat, (turn (-v.1) (2 * v.2.2)).2.toNat))
    (fun pair => (-(turn pair.1 pair.2).1, -((turn pair.1 pair.2).2 / 2),
      (turn pair.1 pair.2).2 / 2)) ?_ ?_ ?_ ?_
  · rintro ⟨x, y, z⟩ mem
    rw [Finset.mem_coe, Finset.mem_filter, mem_base_fixed general] at mem
    rcases mem with ⟨⟨rfl, value, z_pos, side⟩, far⟩
    rw [Finset.mem_coe, Finset.mem_filter, mem_representations, represents_eleven residue]
    have odd := general.abscissa_odd (x := x) (y := -z) (z := z) (by linarith)
    have same_value := turn_value (-x) (2 * z)
    have different : 2 * z ≠ -x := by omega
    simp only [turn] at same_value far ⊢
    refine ⟨⟨by omega, by omega, by omega, ?_⟩, by omega⟩
    zify
    rw [Int.toNat_of_nonneg (by omega), Int.toNat_of_nonneg (by omega)]
    linarith
  · rintro ⟨x, y⟩ mem
    rw [Finset.mem_coe, Finset.mem_filter, mem_representations, represents_eleven residue] at mem
    rcases mem with ⟨⟨x_pos, y_pos, lt, value⟩, odd⟩
    zify at value
    have parity := odd_iff_of_value_eleven residue value
    have same_value := turn_value x y
    obtain ⟨half, same⟩ : 2 ∣ (turn x y).2 := by
      dsimp only [turn]
      omega
    rw [Finset.mem_coe, Finset.mem_filter, mem_base_fixed general]
    dsimp only
    rw [same] at same_value ⊢
    rw [Int.mul_ediv_cancel_left _ two_ne_zero]
    simp only [turn] at same same_value ⊢
    exact ⟨⟨trivial, by linarith, by omega, by omega⟩, by omega⟩
  · rintro ⟨x, y, z⟩ mem
    rw [Finset.mem_coe, Finset.mem_filter, mem_base_fixed general] at mem
    rcases mem with ⟨⟨rfl, value, z_pos, side⟩, far⟩
    simp only [turn, Prod.mk.injEq] at far ⊢
    omega
  · rintro ⟨x, y⟩ mem
    rw [Finset.mem_coe, Finset.mem_filter, mem_representations, represents_eleven residue] at mem
    rcases mem with ⟨⟨x_pos, y_pos, lt, value⟩, odd⟩
    zify at value
    have parity := odd_iff_of_value_eleven residue value
    simp only [turn, Prod.mk.injEq]
    omega

theorem card_base_three (residue : k % 12 = 11) (general : General 3 k) :
    ((base 3 k).filter fun v => v.2.1 = -v.2.2).card = (representations k).card := by
  rw [← Finset.card_filter_add_card_filter_not (fun v => 2 * v.2.2 < -v.1),
    card_base_near residue general, card_base_far residue general,
    Finset.card_filter_add_card_filter_not]

/-! ## Parity -/

theorem card_lesserDivisors_split (coprime : k % 3 ≠ 0) : (lesserDivisors k).card =
    ((lesserDivisors k).filter fun d => (4 - 1 : ℤ) * d < (k / d : ℕ)).card +
      ((lesserDivisors k).filter fun d => k / d < 3 * d).card := by
  rw [← Finset.card_filter_add_card_filter_not (fun d => k / d < 3 * d), Nat.add_comm]
  congr 2
  refine Finset.filter_congr fun d mem => ?_
  rw [mem_lesserDivisors] at mem
  rcases mem with ⟨e, d_pos, lt, rfl⟩
  rw [Nat.mul_div_cancel_left e d_pos]
  have different : e ≠ 3 * d := by
    rintro rfl
    apply coprime
    rw [← Nat.mul_left_comm, Nat.mul_mod_right]
  omega

theorem lesserDivisors_above :
    ((lesserDivisors k).filter fun d => (4 - 3 : ℤ) * d < (k / d : ℕ)) = lesserDivisors k := by
  refine Finset.filter_eq_self.mpr fun d mem => ?_
  rw [mem_lesserDivisors] at mem
  rcases mem with ⟨e, d_pos, lt, rfl⟩
  rw [Nat.mul_div_cancel_left e d_pos]
  omega

theorem card_representations_modEq (coprime : k % 2 = 1 ∧ k % 3 ≠ 0) (nonsquare : ¬ IsSquare k) :
    (representations k).card ≡ (lesserDivisors k).card [MOD 2] := by
  have residues : (k % 12 = 1 ∨ k % 12 = 5) ∨ k % 12 = 7 ∨ k % 12 = 11 := by omega
  rcases residues with residue | residue | residue
  · have general := general_one (by omega) nonsquare
    rw [← card_corner_one residue general, card_lesserDivisors_split coprime.2,
      ← card_right_fixed general (by omega), ← card_base_fixed general (by omega)]
    exact card_corner_modEq general
  · have general := general_three coprime.1 coprime.2
    have parity := card_corner_modEq general
    rw [base_three_empty residue general, card_right_fixed general (by omega),
      lesserDivisors_above, card_corner_three residue general] at parity
    exact parity
  · have general := general_three coprime.1 coprime.2
    have parity := card_corner_modEq general
    rw [corner_three_empty residue general, card_right_fixed general (by omega),
      lesserDivisors_above, card_base_three residue general] at parity
    rw [Finset.card_empty] at parity
    unfold Nat.ModEq at *
    omega

/--
Atkin's theorem: the parity of the representations decides whether a squarefree number that is
coprime to 6 is prime.
-/
theorem odd_card_representations_iff (coprime : k % 2 = 1 ∧ k % 3 ≠ 0) (two_le : 2 ≤ k)
    (squarefree : Squarefree k) : (representations k).card % 2 = 1 ↔ k.Prime := by
  have nonsquare : ¬ IsSquare k := by
    rintro ⟨root, rfl⟩
    have unit := squarefree root (dvd_refl _)
    rw [Nat.isUnit_iff] at unit
    subst unit
    omega
  rw [← odd_card_lesserDivisors_iff squarefree two_le]
  have parity := card_representations_modEq coprime nonsquare
  unfold Nat.ModEq at parity
  rw [parity]

end TableKernels.Forms
