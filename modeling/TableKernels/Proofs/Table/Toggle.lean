import TableKernels.Proofs.Forms.Representations
import TableKernels.Proofs.Table.Checked

/-!
# The flips of the sieve

Going through the pairs flips the flag of a number once for every representation of it, so that
afterwards a flag tells the parity of the representations. The products and sums of a pair fit their
words for every limit with a 32-bit index.
-/

namespace TableKernels.Table

open Forms

/-- The flag of a number; a number outside the table has none. -/
def flag (table : Array Bool) (number : ℕ) : Bool := table.getD number false

variable {limit x y k : ℕ} {table : Array Bool}

theorem flag_eq (inside : k < table.size) : flag table k = table[k] := by
  simp [flag, inside]

theorem flag_replicate (length number : ℕ) :
    flag (Array.replicate length false) number = false := by
  simp only [flag, Array.getD]
  split
  · simp
  · rfl

theorem flag_set (value : Bool) (inside : k < table.size) (number : ℕ) :
    flag (table.setIfInBounds k value) number =
      if number = k then value else flag table number := by
  simp only [flag, Array.getD_eq_getD_getElem?, Array.getElem?_setIfInBounds]
  split
  · next same =>
    subst same
    simp
  · next different =>
    rw [if_neg (Ne.symm different)]

theorem flag_modify_not (inside : k < table.size) (number : ℕ) :
    flag (table.modify k not) number = (flag table number ^^ decide (number = k)) := by
  simp only [flag, Array.getD_eq_getD_getElem?, Array.getElem?_modify]
  by_cases same : number = k
  · subst same
    simp [inside]
  · simp [same, Ne.symm same]

@[simp]
theorem size_toggle (number : ℤ) : (toggle table number).size = table.size := by
  unfold toggle
  split
  · rfl
  · exact Array.size_modify

@[simp]
theorem size_toggleOn (first second bound number : ℤ) :
    (toggleOn first second bound number table).size = table.size := by
  unfold toggleOn
  split
  · exact size_toggle number
  · rfl

theorem flag_toggleOn {first second number : ℤ} (size : table.size = limit + 1)
    (nonneg : 0 ≤ number) (k : ℕ) :
    flag (toggleOn first second limit number table) k = (flag table k ^^
      decide (number = k ∧ k ≤ limit ∧ ((k : ℤ) % 12 = first ∨ (k : ℤ) % 12 = second))) := by
  lift number to ℕ using nonneg
  simp only [toggleOn, toggle, Nat.cast_le, Int.tmod_eq_emod_of_nonneg (Int.natCast_nonneg number),
    if_neg (not_lt.mpr (Int.natCast_nonneg number)), Int.toNat_natCast, Nat.cast_inj]
  split
  · next taken =>
    rw [flag_modify_not (by omega)]
    congr 1
    rw [decide_eq_decide]
    constructor
    · rintro rfl
      exact ⟨rfl, taken⟩
    · rintro ⟨rfl, _⟩
      rfl
  · next left =>
    rw [decide_eq_false, Bool.xor_false]
    rintro ⟨rfl, taken⟩
    exact left taken

/-- The flips of one pair, without the checks. -/
def flipPair (limit x y : ℕ) (table : Array Bool) : Array Bool :=
  let flipped := toggleOn 7 7 limit (3 * x * x + y * y)
    (toggleOn 1 5 limit (4 * x * x + y * y) table)
  if y < x then toggleOn 11 11 limit (3 * x * x - y * y) flipped else flipped

@[simp]
theorem size_flipPair (limit x y : ℕ) (table : Array Bool) :
    (flipPair limit x y table).size = table.size := by
  simp only [flipPair]
  split <;> simp only [size_toggleOn]

/-- A pair flips exactly the number that it represents. -/
theorem flag_flipPair (size : table.size = limit + 1) (within : k ≤ limit) :
    flag (flipPair limit x y table) k = (flag table k ^^ decide (Represents x y k)) := by
  have first : ((4 * x * x + y * y : ℤ) = k) ↔ 4 * x ^ 2 + y ^ 2 = k := by
    rw [← Nat.cast_inj (R := ℤ)]
    push_cast
    ring_nf
  have second : ((3 * x * x + y * y : ℤ) = k) ↔ 3 * x ^ 2 + y ^ 2 = k := by
    rw [← Nat.cast_inj (R := ℤ)]
    push_cast
    ring_nf
  have third : ((3 * x * x - y * y : ℤ) = k) ↔ 3 * x ^ 2 = k + y ^ 2 := by
    rw [sub_eq_iff_eq_add, ← Nat.cast_inj (R := ℤ)]
    push_cast
    ring_nf
  have first_nonneg : (0 : ℤ) ≤ 4 * x * x + y * y := by positivity
  have second_nonneg : (0 : ℤ) ≤ 3 * x * x + y * y := by positivity
  -- The residues of the three forms differ, so a pair represents a number by at most one.
  simp only [flipPair]
  split
  · next lt =>
    have third_nonneg : (0 : ℤ) ≤ 3 * x * x - y * y := by
      have : (y : ℤ) < x := by exact_mod_cast lt
      nlinarith
    rw [flag_toggleOn (by simpa using size) third_nonneg,
      flag_toggleOn (by simpa using size) second_nonneg, flag_toggleOn size first_nonneg,
      Bool.xor_assoc, Bool.xor_assoc]
    simp only [first, second, third]
    congr 1
    unfold Represents
    grind
  · next ge =>
    rw [flag_toggleOn (by simpa using size) second_nonneg, flag_toggleOn size first_nonneg,
      Bool.xor_assoc]
    simp only [first, second]
    congr 1
    unfold Represents
    grind

/-! ## Every pair -/

theorem togglePair_eq_done (x_le : x * x ≤ limit) (y_le : y * y ≤ limit)
    (limit_lt : limit < 0x80000000) :
    togglePair limit x y table = .done (flipPair limit x y table) := by
  have x_small := le_of_square_le x_le
  -- Written with one square, the terms are linear for the checks against overflow.
  have four : (4 * x * x : ℤ) = 4 * (x * x) := by ring
  have three : (3 * x * x : ℤ) = 3 * (x * x) := by ring
  simp only [togglePair, leadingTerm, flipPair]
  rw [Run.mulSigned_eq_done (by omega) (by omega), Run.mulSigned_eq_done (by omega) (by omega),
    Run.mulSigned_eq_done (by omega) (by omega)]
  simp only [Run.done_bind]
  rw [Run.mulSigned_eq_done (by omega) (by omega), Run.mulSigned_eq_done (by omega) (by omega)]
  simp only [Run.done_bind]
  rw [Run.addSigned_eq_done (by omega) (by omega), Run.addSigned_eq_done (by omega) (by omega),
    Run.subSigned_eq_done (by omega) (by omega)]
  simp only [Run.done_bind, Run.pure_eq_done, Nat.cast_lt]
  split
  · rfl
  · rfl

/-- Goes upward from a number to the first whose square exceeds the limit. -/
theorem upToRoot_induct (limit : ℕ) {motive : ℕ → Prop}
    (beyond : ∀ number, limit < number * number → motive number)
    (within : ∀ number, number * number ≤ limit → motive (number + 1) → motive number)
    (number : ℕ) : motive number := by
  rcases Nat.lt_or_ge limit (number * number) with lt | ge
  · exact beyond number lt
  · exact within number ge (upToRoot_induct limit beyond within (number + 1))
termination_by limit + 1 - number
decreasing_by
  have := le_of_square_le ge
  omega

theorem toggleRow_beyond (y_le : y ≤ 0x80000000) (beyond : limit < y * y) :
    toggleRow limit x y table = .done table := by
  have square := Nat.mul_self_le_mul_self y_le
  unfold toggleRow
  rw [Run.mulSigned_eq_done (by omega) (by omega)]
  simp [Nat.not_le.mpr beyond]

theorem toggleRow_within (x_le : x * x ≤ limit) (y_le : y * y ≤ limit)
    (limit_lt : limit < 0x80000000) :
    toggleRow limit x y table = toggleRow limit x (y + 1) (flipPair limit x y table) := by
  have y_small := le_of_square_le y_le
  conv_lhs => unfold toggleRow
  rw [Run.mulSigned_eq_done (by omega) (by omega)]
  simp only [Run.done_bind, y_le, dite_true, togglePair_eq_done x_le y_le limit_lt]
  rw [Run.addSigned_eq_done (by omega) (by omega), Run.done_bind]

theorem toggleRows_beyond (x_le : x ≤ 0x80000000) (beyond : limit < x * x) :
    toggleRows limit x table = .done table := by
  have square := Nat.mul_self_le_mul_self x_le
  unfold toggleRows
  rw [Run.mulSigned_eq_done (by omega) (by omega)]
  simp [Nat.not_le.mpr beyond]

theorem toggleRows_within {row : Array Bool} (x_le : x * x ≤ limit)
    (limit_lt : limit < 0x80000000) (through : toggleRow limit x 1 table = .done row) :
    toggleRows limit x table = toggleRows limit (x + 1) row := by
  have x_small := le_of_square_le x_le
  conv_lhs => unfold toggleRows
  rw [Run.mulSigned_eq_done (by omega) (by omega)]
  simp only [Run.done_bind, x_le, dite_true, through]
  rw [Run.addSigned_eq_done (by omega) (by omega), Run.done_bind]

/-- The representations with a given `x`, from `y` upward. -/
def rowFrom (x y k : ℕ) : Finset (ℕ × ℕ) :=
  (representations k).filter fun pair => pair.1 = x ∧ y ≤ pair.2

/-- The representations from `x` upward. -/
def rowsFrom (x k : ℕ) : Finset (ℕ × ℕ) := (representations k).filter fun pair => x ≤ pair.1

theorem card_rowFrom_succ (x_pos : 0 < x) (y_pos : 0 < y) : (rowFrom x y k).card =
    (if Represents x y k then 1 else 0) + (rowFrom x (y + 1) k).card := by
  have split := Finset.card_filter_add_card_filter_not (s := rowFrom x y k)
    (fun pair => y < pair.2)
  have rest : (rowFrom x y k).filter (fun pair => y < pair.2) = rowFrom x (y + 1) k := by
    rw [rowFrom, rowFrom, Finset.filter_filter]
    refine Finset.filter_congr fun pair _ => ?_
    omega
  have first : (rowFrom x y k).filter (fun pair => ¬ y < pair.2) =
      if Represents x y k then {(x, y)} else ∅ := by
    ext ⟨u, v⟩
    simp only [rowFrom, Finset.mem_filter, mem_representations]
    split
    · next represents =>
      simp only [Finset.mem_singleton, Prod.mk.injEq]
      constructor
      · omega
      · rintro ⟨rfl, rfl⟩
        exact ⟨⟨⟨x_pos, y_pos, represents⟩, rfl, le_refl v⟩, lt_irrefl v⟩
    · next other =>
      simp only [Finset.notMem_empty, iff_false]
      rintro ⟨⟨⟨_, _, represents⟩, rfl, le⟩, ge⟩
      exact other (by rwa [Nat.le_antisymm (Nat.not_lt.mp ge) le] at represents)
  rw [← split, rest, first, Nat.add_comm]
  split
  · rw [Finset.card_singleton]
  · rw [Finset.card_empty]

theorem card_rowFrom_beyond (beyond : k < y * y) : (rowFrom x y k).card = 0 := by
  rw [Finset.card_eq_zero, rowFrom, Finset.filter_eq_empty_iff]
  rintro ⟨u, v⟩ mem ⟨_, le⟩
  have v_sq := (mem_representations.mp mem).2.2.sq_le.2
  have square : y * y ≤ v * v := Nat.mul_self_le_mul_self le
  rw [sq] at v_sq
  omega

theorem card_rowsFrom_succ : (rowsFrom x k).card =
    (rowFrom x 1 k).card + (rowsFrom (x + 1) k).card := by
  have split := Finset.card_filter_add_card_filter_not (s := rowsFrom x k)
    (fun pair => pair.1 = x)
  have row : (rowsFrom x k).filter (fun pair => pair.1 = x) = rowFrom x 1 k := by
    rw [rowFrom, rowsFrom, Finset.filter_filter]
    refine Finset.filter_congr fun pair mem => ?_
    have y_pos := (mem_representations (x := pair.1) (y := pair.2).mp mem).2.1
    omega
  have rest : (rowsFrom x k).filter (fun pair => ¬ pair.1 = x) = rowsFrom (x + 1) k := by
    rw [rowsFrom, rowsFrom, Finset.filter_filter]
    refine Finset.filter_congr fun pair _ => ?_
    omega
  rw [← split, row, rest]

theorem card_rowsFrom_beyond (beyond : k < x * x) : (rowsFrom x k).card = 0 := by
  rw [Finset.card_eq_zero, rowsFrom, Finset.filter_eq_empty_iff]
  rintro ⟨u, v⟩ mem le
  have u_sq := (mem_representations.mp mem).2.2.sq_le.1
  have square : x * x ≤ u * u := Nat.mul_self_le_mul_self le
  rw [sq] at u_sq
  omega

theorem decide_odd_add (left right : ℕ) : decide ((left + right) % 2 = 1) =
    (decide (left % 2 = 1) ^^ decide (right % 2 = 1)) := by
  rcases Nat.mod_two_eq_zero_or_one left with even | odd <;>
    rcases Nat.mod_two_eq_zero_or_one right with even' | odd' <;>
    simp [Nat.add_mod, *]

/-- A row flips each number as often as the row represents it. -/
theorem toggleRow_flags (x_pos : 0 < x) (x_le : x * x ≤ limit) (limit_lt : limit < 0x80000000)
    (y : ℕ) (y_pos : 0 < y) (y_le : y ≤ limit + 1) (table : Array Bool)
    (size : table.size = limit + 1) :
    ∃ result, toggleRow limit x y table = .done result ∧ result.size = limit + 1 ∧
      ∀ k ≤ limit, flag result k = (flag table k ^^ decide ((rowFrom x y k).card % 2 = 1)) := by
  induction y using upToRoot_induct limit generalizing table with
  | beyond y beyond =>
    refine ⟨table, toggleRow_beyond (by omega) beyond, size, ?_⟩
    intro k k_le
    simp [card_rowFrom_beyond (k := k) (x := x) (by omega : k < y * y)]
  | within y within hypothesis =>
    have y_small := le_of_square_le within
    obtain ⟨result, finished, result_size, flags⟩ := hypothesis (by omega) (by omega)
      (flipPair limit x y table) (by rw [size_flipPair, size])
    refine ⟨result, (toggleRow_within x_le within limit_lt).trans finished, result_size, ?_⟩
    intro k k_le
    rw [flags k k_le, flag_flipPair size k_le, card_rowFrom_succ x_pos y_pos, decide_odd_add,
      Bool.xor_assoc]
    congr 2
    split <;> simp [*]

/-- All rows from one on flip each number as often as they represent it. -/
theorem toggleRows_flags (limit_lt : limit < 0x80000000) (x : ℕ) (x_pos : 0 < x)
    (x_le : x ≤ limit + 1) (table : Array Bool) (size : table.size = limit + 1) :
    ∃ result, toggleRows limit x table = .done result ∧ result.size = limit + 1 ∧
      ∀ k ≤ limit, flag result k = (flag table k ^^ decide ((rowsFrom x k).card % 2 = 1)) := by
  induction x using upToRoot_induct limit generalizing table with
  | beyond x beyond =>
    refine ⟨table, toggleRows_beyond (by omega) beyond, size, ?_⟩
    intro k k_le
    simp [card_rowsFrom_beyond (k := k) (by omega : k < x * x)]
  | within x within hypothesis =>
    have x_small := le_of_square_le within
    obtain ⟨row, through, row_size, row_flags⟩ :=
      toggleRow_flags x_pos within limit_lt 1 one_pos (by omega) table size
    obtain ⟨result, finished, result_size, flags⟩ :=
      hypothesis (by omega) (by omega) row row_size
    refine ⟨result, (toggleRows_within within limit_lt through).trans finished, result_size, ?_⟩
    intro k k_le
    rw [flags k k_le, row_flags k k_le, card_rowsFrom_succ (x := x), decide_odd_add,
      Bool.xor_assoc]

/-- Once all pairs have been through, a flag tells the parity of the representations. -/
theorem toggleRows_parity (limit_lt : limit < 0x80000000) : ∃ result,
    toggleRows limit 1 (Array.replicate (limit + 1) false) = .done result ∧
      result.size = limit + 1 ∧
      ∀ k ≤ limit, flag result k = decide ((representations k).card % 2 = 1) := by
  obtain ⟨result, finished, size, flags⟩ := toggleRows_flags limit_lt 1 one_pos (by omega)
    (Array.replicate (limit + 1) false) Array.size_replicate
  refine ⟨result, finished, size, ?_⟩
  intro k k_le
  have everything : rowsFrom 1 k = representations k := by
    rw [rowsFrom, Finset.filter_eq_self]
    rintro ⟨x, y⟩ mem
    exact (mem_representations.mp mem).1
  rw [flags k k_le, flag_replicate, everything, Bool.false_xor]

end TableKernels.Table
