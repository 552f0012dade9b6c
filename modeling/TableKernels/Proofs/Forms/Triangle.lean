import Mathlib

/-!
# Lines through a triangle

The vectors of value `n` under the form `a * x ^ 2 + 4 * y * z`, for `a` below 4, stand for lines of
a hyperbolic plane, two opposite vectors for the same line. The plane has a triangle with one corner
at infinity, one right angle, and reflections of the form along its three sides. A line that enters
the triangle leaves it, so the lines that cross its sides balance, except that a line through the
right angle crosses one side only. A reflection along a side moves the lines across that side in
pairs unless they are perpendicular to it.

`card_corner_modEq` is what remains modulo 2: the lines through the right angle are as many as the
lines that cross a side at a right angle. Both counts are read as numbers of representations by
binary forms elsewhere. No line runs into the other two corners because `n` and `a` are odd and `n`
is not `a` times a square.
-/

namespace TableKernels.Forms

/-- Modulo 2, a finite set has as many members as an involution of it has fixed points. -/
theorem card_modEq_card_fixed {α : Type*} [DecidableEq α] (items : Finset α) (swap : α → α)
    (stays : ∀ item ∈ items, swap item ∈ items)
    (returns : ∀ item ∈ items, swap (swap item) = item) :
    items.card ≡ (items.filter fun item => swap item = item).card [MOD 2] := by
  have moved : ((items.filter fun item => ¬ swap item = item).card : ZMod 2) = 0 := by
    rw [Finset.card_eq_sum_ones, Nat.cast_sum]
    refine Finset.sum_involution (fun item _ => swap item) ?_ ?_ ?_ ?_
    · intro _ _
      decide
    · intro item item_mem _
      exact (Finset.mem_filter.mp item_mem).2
    · intro item item_mem
      rcases Finset.mem_filter.mp item_mem with ⟨item_mem, different⟩
      refine Finset.mem_filter.mpr ⟨stays item item_mem, ?_⟩
      rw [returns item item_mem]
      exact fun same => different same.symm
    · intro item item_mem
      exact returns item (Finset.mem_filter.mp item_mem).1
  rw [← ZMod.natCast_eq_natCast_iff,
    ← Finset.card_filter_add_card_filter_not (fun item => swap item = item)]
  push_cast
  rw [moved, add_zero]

/-- The coordinates `x`, `y`, `z` of a vector. -/
abbrev Vector : Type := ℤ × ℤ × ℤ

/-- The vectors of value `n` in a box that holds all lines through the triangle. -/
noncomputable def vectors (a n : ℤ) : Finset Vector :=
  (Finset.Icc (-(4 * n)) (4 * n) ×ˢ Finset.Icc (-(4 * n)) (4 * n) ×ˢ
    Finset.Icc (-(4 * n)) (4 * n)).filter
    fun v => a * v.1 ^ 2 + 4 * v.2.1 * v.2.2 = n

/-- The lines across the side between infinity and the right angle. -/
noncomputable def left (a n : ℤ) : Finset Vector :=
  (vectors a n).filter fun v => 0 < v.2.1 ∧ v.2.1 < v.2.2

/-- The lines across the side that is opposite to the right angle. -/
noncomputable def right (a n : ℤ) : Finset Vector :=
  (vectors a n).filter fun v => 0 < v.2.1 ∧ 0 < a * v.1 + 2 * v.2.2 - 2 * v.2.1

/-- The lines across the side that is opposite to infinity. -/
noncomputable def base (a n : ℤ) : Finset Vector :=
  (vectors a n).filter fun v => v.2.1 < v.2.2 ∧ a * v.1 + 2 * v.2.2 - 2 * v.2.1 < 0

/-- The lines through the right angle that enter the triangle. -/
noncomputable def corner (a n : ℤ) : Finset Vector :=
  (vectors a n).filter fun v => 0 < v.1 ∧ 0 < v.2.1 ∧ v.2.2 = v.2.1

variable {a n x y z : ℤ}

theorem mem_vectors : (x, y, z) ∈ vectors a n ↔
    (|x| ≤ 4 * n ∧ |y| ≤ 4 * n ∧ |z| ≤ 4 * n) ∧ a * x ^ 2 + 4 * y * z = n := by
  simp [vectors, abs_le, and_assoc]

theorem box_of_positive (a_pos : 0 < a) (y_pos : 0 < y) (z_pos : 0 < z)
    (value : a * x ^ 2 + 4 * y * z = n) : |x| ≤ 4 * n ∧ |y| ≤ 4 * n ∧ |z| ≤ 4 * n := by
  have square : x ^ 2 ≤ a * x ^ 2 := by nlinarith [sq_nonneg x]
  have y_le : y ≤ y * z := by nlinarith
  have z_le : z ≤ y * z := by nlinarith
  refine ⟨?_, ?_, ?_⟩ <;> rw [abs_le] <;> constructor <;>
    nlinarith [sq_nonneg x, sq_nonneg (x - 1), sq_nonneg (x + 1)]

theorem box_of_side (a_pos : 0 < a) (a_lt : a < 4) (y_pos : 0 < y)
    (side : 0 < a * x + 2 * z - 2 * y) (value : a * x ^ 2 + 4 * y * z = n) :
    |x| ≤ 4 * n ∧ |y| ≤ 4 * n ∧ |z| ≤ 4 * n := by
  -- On this side the form is bounded below by a definite one.
  have definite : a * (x - y) ^ 2 + (4 - a) * y ^ 2 < n := by nlinarith
  have square_y : y ^ 2 < n := by nlinarith [sq_nonneg (x - y), sq_nonneg y]
  have square_difference : (x - y) ^ 2 < n := by nlinarith [sq_nonneg (x - y), sq_nonneg y]
  have square_x : x ^ 2 < 4 * n := by nlinarith [sq_nonneg (x - 2 * y)]
  refine ⟨?_, ?_, ?_⟩
  · rw [abs_le]
    constructor <;> nlinarith
  · rw [abs_le]
    constructor <;> nlinarith
  · have scaled : |4 * y * z| ≤ 16 * n := by
      rw [abs_le]
      constructor <;> nlinarith
    rw [abs_le] at scaled ⊢
    constructor <;> nlinarith

/-- No line of value `n` runs into a corner of the triangle other than the right angle. -/
structure General (a n : ℤ) : Prop where
  pos : 0 < a
  lt_four : a < 4
  odd_value : n % 2 = 1
  odd_coefficient : a % 2 = 1
  not_multiple_of_square : ∀ x : ℤ, a * x ^ 2 ≠ n

namespace General

theorem ordinate_ne_zero (general : General a n) (value : a * x ^ 2 + 4 * y * z = n) :
    y ≠ 0 := by
  rintro rfl
  exact general.not_multiple_of_square x (by linarith)

theorem abscissa_odd (general : General a n) (value : a * x ^ 2 + 4 * y * z = n) :
    x % 2 = 1 := by
  have odd_value := general.odd_value
  rcases Int.emod_two_eq_zero_or_one x with even | odd
  · obtain ⟨half, rfl⟩ := Int.dvd_of_emod_eq_zero even
    have : n = 2 * (2 * (a * half ^ 2 + y * z)) := by
      rw [← value]
      ring
    omega
  · exact odd

theorem side_ne_zero (general : General a n) (value : a * x ^ 2 + 4 * y * z = n) :
    a * x + 2 * z - 2 * y ≠ 0 := by
  have odd := general.abscissa_odd value
  have odd_coefficient := general.odd_coefficient
  have product : a * x % 2 = 1 := by
    rw [Int.mul_emod, odd, odd_coefficient]
    rfl
  omega

end General

theorem mem_left (general : General a n) : (x, y, z) ∈ left a n ↔
    a * x ^ 2 + 4 * y * z = n ∧ 0 < y ∧ y < z := by
  simp only [left, Finset.mem_filter, mem_vectors]
  constructor
  · tauto
  · rintro ⟨value, y_pos, y_lt⟩
    exact ⟨⟨box_of_positive general.pos y_pos (by omega) value, value⟩, y_pos, y_lt⟩

theorem mem_right (general : General a n) : (x, y, z) ∈ right a n ↔
    a * x ^ 2 + 4 * y * z = n ∧ 0 < y ∧ 0 < a * x + 2 * z - 2 * y := by
  simp only [right, Finset.mem_filter, mem_vectors]
  constructor
  · tauto
  · rintro ⟨value, y_pos, side⟩
    exact ⟨⟨box_of_side general.pos general.lt_four y_pos side value, value⟩, y_pos, side⟩

theorem mem_corner (general : General a n) : (x, y, z) ∈ corner a n ↔
    a * x ^ 2 + 4 * y * z = n ∧ 0 < x ∧ 0 < y ∧ z = y := by
  simp only [corner, Finset.mem_filter, mem_vectors]
  constructor
  · tauto
  · rintro ⟨value, x_pos, y_pos, same⟩
    exact ⟨⟨box_of_positive general.pos y_pos (by omega) value, value⟩, x_pos, y_pos, same⟩

theorem mem_base (general : General a n) : (x, y, z) ∈ base a n ↔
    a * x ^ 2 + 4 * y * z = n ∧ y < z ∧ a * x + 2 * z - 2 * y < 0 := by
  simp only [base, Finset.mem_filter, mem_vectors]
  constructor
  · tauto
  · rintro ⟨value, y_lt, side⟩
    refine ⟨⟨?_, value⟩, y_lt, side⟩
    -- The opposite of a vector with a negative `y` is one across the far side.
    rcases lt_or_gt_of_ne (general.ordinate_ne_zero value) with y_neg | y_pos
    · have opposite := box_of_side (x := -x) (y := -y) (z := -z) general.pos general.lt_four
        (by omega) (by linarith) (by linarith)
      simpa using opposite
    · exact box_of_positive general.pos y_pos (by omega) value

/-! ## Reflections along the sides -/

/-- The reflection `x ↦ -x` leaves no line in its place. -/
theorem card_left_modEq (general : General a n) : (left a n).card ≡ 0 [MOD 2] := by
  have parity := card_modEq_card_fixed (left a n) (fun v => (-v.1, v.2.1, v.2.2))
    (fun ⟨x, y, z⟩ mem => by
      rw [mem_left general] at mem ⊢
      simpa using mem)
    (fun ⟨x, y, z⟩ _ => by simp)
  have fixed_empty : ((left a n).filter fun v => (-v.1, v.2.1, v.2.2) = v) = ∅ := by
    refine Finset.filter_eq_empty_iff.mpr ?_
    rintro ⟨x, y, z⟩ mem same
    have odd := general.abscissa_odd ((mem_left general).mp mem).1
    simp only [Prod.mk.injEq, and_true] at same
    omega
  rwa [fixed_empty, Finset.card_empty] at parity

theorem card_right_modEq (general : General a n) :
    (right a n).card ≡ ((right a n).filter fun v => v.1 = v.2.1).card [MOD 2] := by
  have parity := card_modEq_card_fixed (right a n)
    (fun v => (2 * v.2.1 - v.1, v.2.1, a * (v.1 - v.2.1) + v.2.2))
    (fun ⟨x, y, z⟩ mem => by
      rw [mem_right general] at mem ⊢
      rcases mem with ⟨value, y_pos, side⟩
      exact ⟨by linarith, y_pos, by linarith⟩)
    (fun ⟨x, y, z⟩ _ => by
      simp only [Prod.mk.injEq, true_and]
      constructor <;> ring)
  refine parity.trans ?_
  suffices same : ((right a n).filter fun v =>
      (2 * v.2.1 - v.1, v.2.1, a * (v.1 - v.2.1) + v.2.2) = v) =
      (right a n).filter fun v => v.1 = v.2.1 by rw [same]
  refine Finset.filter_congr ?_
  rintro ⟨x, y, z⟩ _
  simp only [Prod.mk.injEq, true_and]
  constructor
  · rintro ⟨first, _⟩
    omega
  · rintro rfl
    constructor <;> ring

theorem card_base_modEq (general : General a n) :
    (base a n).card ≡ ((base a n).filter fun v => v.2.1 = -v.2.2).card [MOD 2] := by
  have parity := card_modEq_card_fixed (base a n) (fun v => (v.1, -v.2.2, -v.2.1))
    (fun ⟨x, y, z⟩ mem => by
      rw [mem_base general] at mem ⊢
      rcases mem with ⟨value, y_lt, side⟩
      exact ⟨by linarith, neg_lt_neg y_lt, by linarith⟩)
    (fun ⟨x, y, z⟩ _ => by simp)
  refine parity.trans ?_
  suffices same : ((base a n).filter fun v => (v.1, -v.2.2, -v.2.1) = v) =
      (base a n).filter fun v => v.2.1 = -v.2.2 by rw [same]
  refine Finset.filter_congr ?_
  rintro ⟨x, y, z⟩ _
  simp only [Prod.mk.injEq, true_and]
  omega

/-! ## A line that enters leaves -/

theorem right_above (general : General a n) :
    ((right a n).filter fun v => v.2.1 < v.2.2) =
      (left a n).filter fun v => 0 < a * v.1 + 2 * v.2.2 - 2 * v.2.1 := by
  ext ⟨x, y, z⟩
  simp only [Finset.mem_filter, mem_right general, mem_left general]
  tauto

theorem left_outside (general : General a n) :
    ((left a n).filter fun v => ¬ 0 < a * v.1 + 2 * v.2.2 - 2 * v.2.1) =
      (base a n).filter fun v => 0 < v.2.1 := by
  ext ⟨x, y, z⟩
  simp only [Finset.mem_filter, mem_base general, mem_left general]
  constructor
  · rintro ⟨⟨value, y_pos, y_lt⟩, side⟩
    have nonzero := general.side_ne_zero value
    exact ⟨⟨value, y_lt, by omega⟩, y_pos⟩
  · rintro ⟨⟨value, y_lt, side⟩, y_pos⟩
    exact ⟨⟨value, y_pos, y_lt⟩, by omega⟩

theorem right_corner (general : General a n) :
    ((right a n).filter fun v => v.2.2 = v.2.1) = corner a n := by
  ext ⟨x, y, z⟩
  simp only [Finset.mem_filter, mem_right general, mem_corner general]
  constructor
  · rintro ⟨⟨value, y_pos, side⟩, same⟩
    have product_pos : 0 < a * x := by omega
    exact ⟨value, (mul_pos_iff_of_pos_left general.pos).mp product_pos, y_pos, same⟩
  · rintro ⟨value, x_pos, y_pos, same⟩
    have product_pos := mul_pos general.pos x_pos
    exact ⟨⟨value, y_pos, by omega⟩, same⟩

/-- The remaining lines across two sides are given by opposite vectors there. -/
theorem card_right_below (general : General a n) :
    ((right a n).filter fun v => v.2.2 < v.2.1).card =
      ((base a n).filter fun v => ¬ 0 < v.2.1).card := by
  refine Finset.card_nbij' (fun v => (-v.1, -v.2.1, -v.2.2)) (fun v => (-v.1, -v.2.1, -v.2.2))
    ?_ ?_ ?_ ?_
  · rintro ⟨x, y, z⟩ mem
    rw [Finset.mem_coe, Finset.mem_filter] at mem ⊢
    rw [mem_right general] at mem
    rw [mem_base general]
    rcases mem with ⟨⟨value, y_pos, side⟩, z_lt⟩
    exact ⟨⟨by linarith, neg_lt_neg z_lt, by linarith⟩, by simpa using y_pos.le⟩
  · rintro ⟨x, y, z⟩ mem
    rw [Finset.mem_coe, Finset.mem_filter] at mem ⊢
    rw [mem_base general] at mem
    rw [mem_right general]
    rcases mem with ⟨⟨value, y_lt, side⟩, y_le⟩
    have nonzero := general.ordinate_ne_zero value
    have y_neg : y < 0 := lt_of_le_of_ne (not_lt.mp y_le) nonzero
    exact ⟨⟨by linarith, neg_pos.mpr y_neg, by linarith⟩, neg_lt_neg y_lt⟩
  · rintro ⟨x, y, z⟩ _
    simp
  · rintro ⟨x, y, z⟩ _
    simp

theorem card_right_eq (general : General a n) : (right a n).card =
    ((right a n).filter fun v => v.2.1 < v.2.2).card + (corner a n).card +
      ((right a n).filter fun v => v.2.2 < v.2.1).card := by
  have split := Finset.card_filter_add_card_filter_not (s := right a n) (fun v => v.2.1 < v.2.2)
  have split_rest := Finset.card_filter_add_card_filter_not
    (s := (right a n).filter fun v => ¬ v.2.1 < v.2.2) (fun v => v.2.2 = v.2.1)
  have through_corner : (((right a n).filter fun v => ¬ v.2.1 < v.2.2).filter fun v =>
      v.2.2 = v.2.1) = corner a n := by
    rw [← right_corner general, Finset.filter_filter]
    refine Finset.filter_congr fun v _ => ?_
    omega
  have below : (((right a n).filter fun v => ¬ v.2.1 < v.2.2).filter fun v =>
      ¬ v.2.2 = v.2.1) = (right a n).filter fun v => v.2.2 < v.2.1 := by
    rw [Finset.filter_filter]
    refine Finset.filter_congr fun v _ => ?_
    omega
  rw [through_corner, below] at split_rest
  omega

/--
Modulo 2, as many lines run through the right angle as cross one of the other two sides at a right
angle.
-/
theorem card_corner_modEq (general : General a n) : (corner a n).card ≡
    ((right a n).filter fun v => v.1 = v.2.1).card +
      ((base a n).filter fun v => v.2.1 = -v.2.2).card [MOD 2] := by
  -- A line across two sides is counted at both, a line through the right angle at one.
  have balance : (corner a n).card + 2 * (((left a n).filter fun v =>
      0 < a * v.1 + 2 * v.2.2 - 2 * v.2.1).card + (base a n).card) =
      (left a n).card + (right a n).card + (base a n).card := by
    have through_right := card_right_eq general
    have opposite := card_right_below general
    have inside := congrArg Finset.card (right_above general)
    have outside := congrArg Finset.card (left_outside general)
    have split_left := Finset.card_filter_add_card_filter_not (s := left a n)
      (fun v => 0 < a * v.1 + 2 * v.2.2 - 2 * v.2.1)
    have split_base := Finset.card_filter_add_card_filter_not (s := base a n)
      (fun v => 0 < v.2.1)
    omega
  have left_parity := card_left_modEq general
  have right_parity := card_right_modEq general
  have base_parity := card_base_modEq general
  unfold Nat.ModEq at *
  omega

end TableKernels.Forms
