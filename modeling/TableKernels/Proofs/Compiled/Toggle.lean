import TableKernels.Proofs.Compiled.Registers

/-!
# Compiled flips

The compiled loops over the pairs flip the same flags as the loops over a table do.
-/

namespace TableKernels.Compiled

open Wasm

variable {frames : Frames} {room : Headroom} {store : Store HostState}
  {registers : Registers} {table : Array Bool} {number : ℕ}

theorem modify_not (inside : number < table.size) :
    table.modify number not = table.setIfInBounds number (!Table.flag table number) := by
  refine Array.ext_getElem? fun index => ?_
  rw [Array.getElem?_modify, Array.getElem?_setIfInBounds, Table.flag_eq inside]
  split
  · next same =>
    subst same
    rw [Array.getElem?_eq_getElem inside]
    rfl
  · rfl

/-- Flips the flag of `n`. -/
theorem toggle_moves (inside : registers.n < table.size) (small : table.size ≤ 0x80000000) :
    Moves frames room store 11 Compiled.toggle registers table registers
      (Table.toggle table registers.n) := by
  intro memory tabled
  have flipped : Table.toggle table registers.n =
      table.setIfInBounds registers.n (!Table.flag table registers.n) := by
    rw [Table.toggle, if_neg (by omega), Int.toNat_natCast, modify_not inside]
  rw [flipped]
  refine ⟨_, tabled.store inside (!Table.flag table registers.n), ?_⟩
  have place := (flagAddress_passes frames room (onMemory store memory) [] SieveLocal.n
    registers.words rfl)
  have operand := (flagAddress_passes frames room (onMemory store memory)
    [.i32 (UInt32.ofNat (heapStart + registers.n))] SieveLocal.n registers.words rfl)
  have load := loadFlag_passes frames room [.i32 (UInt32.ofNat (heapStart + registers.n))]
    registers.words tabled inside small
  have invert : Passes frames.program room 1 [apply .i32Eqz]
      [.i32 (flagByte (Table.flag table registers.n)).toUInt32,
        .i32 (UInt32.ofNat (heapStart + registers.n))] registers.words (onMemory store memory)
      [.i32 (flagByte (!Table.flag table registers.n)).toUInt32,
        .i32 (UInt32.ofNat (heapStart + registers.n))] registers.words
      (onMemory store memory) := by
    refine Passes.unary rfl ?_
    cases Table.flag table registers.n <;> rfl
  have save := storeFlag_passes frames room _ [] registers.words _ _ tabled inside small
    (UInt8.toUInt8_toUInt32 (flagByte (!Table.flag table registers.n)))
  exact ((place.append operand).append (load.cons (invert.cons save))).mono (by decide)

/-! ## Forms -/

/-- Whether a residue modulo 12 is one of two. -/
abbrev OnResidue (first second number : ℕ) : Prop := number % 12 = first ∨ number % 12 = second

theorem toggleOn_eq (first second limit number : ℕ) (table : Array Bool) :
    Table.toggleOn first second limit number table =
      if number ≤ limit ∧ OnResidue first second number then Table.toggle table number
      else table := by
  simp only [Table.toggleOn, Int.tmod_eq_emod_of_nonneg (Int.natCast_nonneg number), OnResidue]
  norm_cast

/-- A form flips its number if that is within the limit and on its residues. -/
theorem toggleForm_moves (frames : Frames) (room : Headroom) (store : Store HostState)
    {coefficient : Int64} {operator : Operator} {onResidue : List Instr} {first second rest : ℕ}
    (size : table.size = registers.limit + 1) (limit_lt : registers.limit < 0x80000000)
    (number_lt : number < 0x8000000000000000)
    (value : ∀ store, Passes frames.program room 10 (quadraticForm coefficient operator) []
      registers.words store [] { registers with n := number }.words store)
    (test : ∀ store, Passes frames.program room 10 onResidue []
      { registers with n := number }.words store
      [.i32 (truthOf (OnResidue first second number))]
      { registers with n := number, residue := rest }.words store) :
    ∃ residue, Moves frames room store 50 (toggleForm coefficient operator onResidue) registers
      table { registers with n := number, residue }
      (Table.toggleOn first second registers.limit number table) := by
  rw [toggleOn_eq]
  have within : ∀ store : Store HostState, Passes frames.program room 3 withinLimit []
      { registers with n := number }.words store [.i32 (truthOf (number ≤ registers.limit))]
      { registers with n := number }.words store := by
    intro store
    rw [← truth_le (by omega) (by omega)]
    exact Passes.of_straight rfl rfl
  -- The residue is taken only of a number within the limit.
  refine ⟨if number ≤ registers.limit then rest else registers.residue, ?_⟩
  refine Moves.mono ?_ (show 10 + 3 + (10 + (11 + 2) + 2) ≤ 50 by decide)
  refine Moves.ifThen (fun memory _ => (value _).append (within _)) ?_ ?_
  · intro le
    simp only [le, if_true, true_and]
    refine Moves.ifThen (fun memory _ => test _) ?_ ?_
    · intro matched
      simp only [matched, if_true]
      exact toggle_moves (by change number < _; omega) (by omega)
    · intro other
      simp only [other, if_false, and_self]
  · intro beyond
    simp only [beyond, if_false, false_and, and_self]

theorem quadraticForm_add (coefficient : Int64) (multiplier : ℕ)
    (same : coefficient.toUInt64 = UInt64.ofNat multiplier) (store : Store HostState) :
    Passes frames.program room 10 (quadraticForm coefficient .i64Add) [] registers.words store []
      { registers with
        n := multiplier * registers.x * registers.x + registers.y * registers.y }.words store := by
  have value : coefficient.toUInt64 * UInt64.ofNat registers.x * UInt64.ofNat registers.x +
      UInt64.ofNat registers.y * UInt64.ofNat registers.y = UInt64.ofNat
        (multiplier * registers.x * registers.x + registers.y * registers.y) := by
    rw [same, UInt64.ofNat_add, UInt64.ofNat_mul, UInt64.ofNat_mul, UInt64.ofNat_mul]
  refine Passes.of_straight ?_ rfl
  simp only [Registers.words, ← value]
  rfl

theorem quadraticForm_sub (coefficient : Int64) (multiplier : ℕ)
    (same : coefficient.toUInt64 = UInt64.ofNat multiplier)
    (le : registers.y * registers.y ≤ multiplier * registers.x * registers.x)
    (small : multiplier * registers.x * registers.x < 0x8000000000000000)
    (store : Store HostState) :
    Passes frames.program room 10 (quadraticForm coefficient .i64Sub) [] registers.words store []
      { registers with
        n := multiplier * registers.x * registers.x - registers.y * registers.y }.words store := by
  have value : coefficient.toUInt64 * UInt64.ofNat registers.x * UInt64.ofNat registers.x -
      UInt64.ofNat registers.y * UInt64.ofNat registers.y = UInt64.ofNat
        (multiplier * registers.x * registers.x - registers.y * registers.y) := by
    rw [same, ← UInt64.ofNat_mul, ← UInt64.ofNat_mul, ← UInt64.ofNat_mul,
      sub_ofNat64 le (by omega)]
  refine Passes.of_straight ?_ rfl
  simp only [Registers.words, ← value]
  rfl

theorem truth_residue (small : number < 0x8000000000000000) {value : Int64} {rest : ℕ}
    (same : value.toUInt64 = UInt64.ofNat rest) (rest_lt : rest < 0x8000000000000000) :
    truth (UInt64.ofNat number % (12 : Int64).toUInt64 == value.toUInt64) =
      .i32 (truthOf (number % 12 = rest)) := by
  rw [show (12 : Int64).toUInt64 = UInt64.ofNat 12 from rfl, mod_ofNat64 (by omega) (by omega),
    same, truth_eq (by omega) (by omega)]

theorem hasResidue_passes (small : registers.n < 0x8000000000000000) (value : Int64) {rest : ℕ}
    (same : value.toUInt64 = UInt64.ofNat rest) (rest_lt : rest < 0x8000000000000000)
    (store : Store HostState) :
    Passes frames.program room 10 (hasResidue value) [] registers.words store
      [.i32 (truthOf (OnResidue rest rest registers.n))] registers.words store := by
  rw [truthOf_congr (or_self_iff (a := registers.n % 12 = rest)),
    ← truth_residue small same rest_lt]
  exact (Passes.of_straight rfl rfl : Passes frames.program room 5 _ _ _ _ _ _ _).mono (by decide)

theorem hasEitherResidue_passes (small : registers.n < 0x8000000000000000) (first second : Int64)
    {rest rest' : ℕ} (same : first.toUInt64 = UInt64.ofNat rest)
    (same' : second.toUInt64 = UInt64.ofNat rest') (rest_lt : rest < 0x8000000000000000)
    (rest_lt' : rest' < 0x8000000000000000) (store : Store HostState) :
    Passes frames.program room 10 (hasEitherResidue first second) [] registers.words store
      [.i32 (truthOf (OnResidue rest rest' registers.n))]
      { registers with residue := registers.n % 12 }.words store := by
  have residue : UInt64.ofNat registers.n % (12 : Int64).toUInt64 =
      UInt64.ofNat (registers.n % 12) := mod_ofNat64 (by omega) (by decide)
  have one : Passes frames.program room 6
      [get SieveLocal.n, const64 12, apply .i64RemU, .op (.localTee SieveLocal.residue),
        const64 first, apply .i64Eq] [] registers.words store
      [.i32 (truthOf (registers.n % 12 = rest))]
      { registers with residue := registers.n % 12 }.words store := by
    rw [← truth_residue small same rest_lt]
    refine Passes.of_straight ?_ rfl
    simp only [Registers.words, ← residue]
    rfl
  have other : Passes frames.program room 3
      [get SieveLocal.residue, const64 second, apply .i64Eq]
      [.i32 (truthOf (registers.n % 12 = rest))]
      { registers with residue := registers.n % 12 }.words store
      [.i32 (truthOf (registers.n % 12 = rest')), .i32 (truthOf (registers.n % 12 = rest))]
      { registers with residue := registers.n % 12 }.words store := by
    rw [← truth_residue small same' rest_lt']
    refine Passes.of_straight ?_ rfl
    simp only [Registers.words, ← residue]
    rfl
  have either : Passes frames.program room 1 [apply .i32Or]
      [.i32 (truthOf (registers.n % 12 = rest')), .i32 (truthOf (registers.n % 12 = rest))]
      { registers with residue := registers.n % 12 }.words store
      [.i32 (truthOf (OnResidue rest rest' registers.n))]
      { registers with residue := registers.n % 12 }.words store := by
    have joined : truthOf (registers.n % 12 = rest) ||| truthOf (registers.n % 12 = rest') =
        truthOf (OnResidue rest rest' registers.n) := truthOf_or _ _
    rw [← joined]
    exact Passes.of_straight rfl rfl
  exact (one.append other).append either

/-! ## Pairs -/

theorem flipPair_eq (limit x y : ℕ) (table : Array Bool) :
    Table.flipPair limit x y table =
      if y < x then
        Table.toggleOn (11 : ℕ) (11 : ℕ) limit (3 * x * x - y * y : ℕ)
          (Table.toggleOn (7 : ℕ) (7 : ℕ) limit (3 * x * x + y * y : ℕ)
            (Table.toggleOn (1 : ℕ) (5 : ℕ) limit (4 * x * x + y * y : ℕ) table))
      else
        Table.toggleOn (7 : ℕ) (7 : ℕ) limit (3 * x * x + y * y : ℕ)
          (Table.toggleOn (1 : ℕ) (5 : ℕ) limit (4 * x * x + y * y : ℕ) table) := by
  unfold Table.flipPair
  split
  · next lt =>
    have le : y * y ≤ 3 * x * x := by nlinarith
    push_cast [Nat.cast_sub le]
    rfl
  · push_cast
    rfl

/-- The registers hold a limit and a pair whose squares are within it. -/
structure AtPair (limit x y : ℕ) (registers : Registers) (table : Array Bool) : Prop where
  limit_eq : registers.limit = limit
  x_eq : registers.x = x
  y_eq : registers.y = y
  size : table.size = limit + 1
  limit_lt : limit < 0x80000000
  x_le : x * x ≤ limit
  y_le : y * y ≤ limit

namespace AtPair

variable {limit x y : ℕ}

theorem multiple_le (pair : AtPair limit x y registers table) (multiplier : ℕ) :
    multiplier * x * x ≤ multiplier * limit := by
  rw [Nat.mul_assoc]
  exact Nat.mul_le_mul_left multiplier pair.x_le

theorem flipped (pair : AtPair limit x y registers table) (first second number : ℤ)
    (n residue : ℕ) :
    AtPair limit x y { registers with n, residue }
      (Table.toggleOn first second limit number table) :=
  { pair with size := (Table.size_toggleOn first second limit number).trans pair.size }

theorem first_form (frames : Frames) (room : Headroom) (store : Store HostState)
    (pair : AtPair limit x y registers table) : ∃ registers',
    AtPair limit x y registers'
      (Table.toggleOn (1 : ℕ) (5 : ℕ) limit (4 * x * x + y * y : ℕ) table) ∧
    Moves frames room store 50 (toggleForm 4 .i64Add (hasEitherResidue 1 5)) registers table
      registers' (Table.toggleOn (1 : ℕ) (5 : ℕ) limit (4 * x * x + y * y : ℕ) table) := by
  have multiple := pair.multiple_le 4
  have limit_lt := pair.limit_lt
  have y_le := pair.y_le
  obtain ⟨rfl, rfl, rfl⟩ : registers.limit = limit ∧ registers.x = x ∧ registers.y = y :=
    ⟨pair.limit_eq, pair.x_eq, pair.y_eq⟩
  obtain ⟨residue, moves⟩ := toggleForm_moves frames room store pair.size limit_lt (by omega)
    (quadraticForm_add 4 4 rfl)
    (hasEitherResidue_passes (by change _ + _ < _; omega) 1 5 rfl rfl (by decide) (by decide))
  exact ⟨_, pair.flipped _ _ _ _ residue, moves⟩

theorem second_form (frames : Frames) (room : Headroom) (store : Store HostState)
    (pair : AtPair limit x y registers table) : ∃ registers',
    AtPair limit x y registers'
      (Table.toggleOn (7 : ℕ) (7 : ℕ) limit (3 * x * x + y * y : ℕ) table) ∧
    Moves frames room store 50 (toggleForm 3 .i64Add (hasResidue 7)) registers table
      registers' (Table.toggleOn (7 : ℕ) (7 : ℕ) limit (3 * x * x + y * y : ℕ) table) := by
  have multiple := pair.multiple_le 3
  have limit_lt := pair.limit_lt
  have y_le := pair.y_le
  obtain ⟨rfl, rfl, rfl⟩ : registers.limit = limit ∧ registers.x = x ∧ registers.y = y :=
    ⟨pair.limit_eq, pair.x_eq, pair.y_eq⟩
  obtain ⟨residue, moves⟩ := toggleForm_moves frames room store pair.size limit_lt (by omega)
    (quadraticForm_add 3 3 rfl)
    (hasResidue_passes (by change _ + _ < _; omega) 7 rfl (by decide))
  exact ⟨_, pair.flipped _ _ _ _ residue, moves⟩

theorem third_form (frames : Frames) (room : Headroom) (store : Store HostState)
    (pair : AtPair limit x y registers table) (lt : y < x) : ∃ registers',
    AtPair limit x y registers'
      (Table.toggleOn (11 : ℕ) (11 : ℕ) limit (3 * x * x - y * y : ℕ) table) ∧
    Moves frames room store 50 (toggleForm 3 .i64Sub (hasResidue 11)) registers table
      registers' (Table.toggleOn (11 : ℕ) (11 : ℕ) limit (3 * x * x - y * y : ℕ) table) := by
  have multiple := pair.multiple_le 3
  have limit_lt := pair.limit_lt
  obtain ⟨rfl, rfl, rfl⟩ : registers.limit = limit ∧ registers.x = x ∧ registers.y = y :=
    ⟨pair.limit_eq, pair.x_eq, pair.y_eq⟩
  obtain ⟨residue, moves⟩ := toggleForm_moves frames room store pair.size limit_lt (by omega)
    (quadraticForm_sub 3 3 rfl (by nlinarith) (by omega))
    (hasResidue_passes (by change _ - _ < _; omega) 11 rfl (by decide))
  exact ⟨_, pair.flipped _ _ _ _ residue, moves⟩

theorem compare_passes (pair : AtPair limit x y registers table) (store : Store HostState) :
    Passes frames.program room 3 [get SieveLocal.x, get SieveLocal.y, apply .i64GtS] []
      registers.words store [.i32 (truthOf (y < x))] registers.words store := by
  have x_le := Table.le_of_square_le pair.x_le
  have y_le := Table.le_of_square_le pair.y_le
  have limit_lt := pair.limit_lt
  rw [← truth_lt_signed (by omega) (by omega), ← pair.x_eq, ← pair.y_eq]
  exact Passes.of_straight rfl rfl

end AtPair

/-- The code for one pair, which goes on to the next `y`. -/
def pairCode : List Instr :=
  toggleForm 4 .i64Add (hasEitherResidue 1 5) ++ toggleForm 3 .i64Add (hasResidue 7) ++
    [get SieveLocal.x, get SieveLocal.y, apply .i64GtS,
      .ifThen (toggleForm 3 .i64Sub (hasResidue 11))] ++
    increment SieveLocal.y

theorem AtPair.moves (frames : Frames) (room : Headroom) (store : Store HostState)
    {limit x y : ℕ} (pair : AtPair limit x y registers table) :
    ∃ registers', registers'.limit = limit ∧ registers'.x = x ∧ registers'.y = y + 1 ∧
      Moves frames room store 200 pairCode registers table registers'
        (Table.flipPair limit x y table) := by
  obtain ⟨registers₁, pair₁, first⟩ := pair.first_form frames room store
  obtain ⟨registers₂, pair₂, second⟩ := pair₁.second_form frames room store
  have third : ∃ registers₃, AtPair limit x y registers₃ (Table.flipPair limit x y table) ∧
      Moves frames room store (3 + (50 + 2))
        [get SieveLocal.x, get SieveLocal.y, apply .i64GtS,
          .ifThen (toggleForm 3 .i64Sub (hasResidue 11))] registers₂
        (Table.toggleOn (7 : ℕ) (7 : ℕ) limit (3 * x * x + y * y : ℕ)
          (Table.toggleOn (1 : ℕ) (5 : ℕ) limit (4 * x * x + y * y : ℕ) table))
        registers₃ (Table.flipPair limit x y table) := by
    rw [flipPair_eq]
    by_cases lt : y < x
    · obtain ⟨registers₃, pair₃, third⟩ := pair₂.third_form frames room store lt
      rw [if_pos lt]
      exact ⟨registers₃, pair₃, Moves.ifThen (fun memory _ => pair₂.compare_passes _)
        (fun _ => third) (fun ge => absurd lt ge)⟩
    · rw [if_neg lt]
      exact ⟨registers₂, pair₂, Moves.ifThen (fun memory _ => pair₂.compare_passes _)
        (fun holds => absurd holds lt) (fun _ => ⟨rfl, rfl⟩)⟩
  obtain ⟨registers₃, pair₃, third⟩ := third
  have next : Moves frames room store (1 + 3) (increment SieveLocal.y) registers₃
      (Table.flipPair limit x y table) { registers₃ with y := registers₃.y + 1 }
      (Table.flipPair limit x y table) :=
    Moves.of_passes fun memory => increment_passes _ _ _ _ _ _ rfl
  have all := ((first.append second).append third).append next
  exact ⟨{ registers₃ with y := registers₃.y + 1 }, pair₃.limit_eq, pair₃.x_eq,
    congrArg (· + 1) pair₃.y_eq, all.mono (show _ ≤ 200 by decide)⟩

/-! ## Rows -/

variable {limit x y : ℕ}

/-- The loop over one row flips what the reference flips. -/
theorem row_loops (frames : Frames) (room : Headroom) (store : Store HostState)
    (limit_lt : limit < 0x80000000) (x_le : x * x ≤ limit) (y : ℕ) (y_le : y ≤ limit + 1)
    (registers : Registers) (limit_eq : registers.limit = limit) (x_eq : registers.x = x)
    (y_eq : registers.y = y) (table : Array Bool) (size : table.size = limit + 1) :
    ∃ registers' result, Table.toggleRow limit x y table = .done result ∧
      result.size = limit + 1 ∧ registers'.limit = limit ∧ registers'.x = x ∧
      Loops frames room store (210 + (limit + 2 - y)) (squareExceedsLimit SieveLocal.y) pairCode
        registers table registers' result := by
  -- The loop and the reference take the same turns, so one induction is over both.
  induction y using Table.upToRoot_induct limit generalizing registers table with
  | beyond y beyond =>
    refine ⟨registers, table, Table.toggleRow_beyond (by omega) beyond, size, limit_eq, x_eq, ?_⟩
    refine (Loops.stop (registers.limit < registers.y * registers.y)
      (fun store => squareExceedsLimit_passes rfl (by omega) (by omega)) ?_).mono (by omega)
    rwa [limit_eq, y_eq]
  | within y within hypothesis =>
    have y_small := Table.le_of_square_le within
    have pair : AtPair limit x y registers table :=
      ⟨limit_eq, x_eq, y_eq, size, limit_lt, x_le, within⟩
    obtain ⟨registers₁, limit_eq₁, x_eq₁, y_eq₁, turn⟩ := pair.moves frames room store
    obtain ⟨registers', result, run, result_size, limit_eq', x_eq', rest⟩ := hypothesis (by omega)
      registers₁ limit_eq₁ x_eq₁ y_eq₁ (Table.flipPair limit x y table)
      (by rw [Table.size_flipPair, size])
    refine ⟨registers', result, (Table.toggleRow_within x_le within limit_lt).trans run,
      result_size, limit_eq', x_eq', ?_⟩
    refine (Loops.again (registers.limit < registers.y * registers.y)
      (fun store => squareExceedsLimit_passes rfl (by omega) (by omega)) ?_ turn rest).mono
      (by omega)
    rw [limit_eq, y_eq]
    omega

theorem row_moves (frames : Frames) (room : Headroom) (store : Store HostState)
    (limit_lt : limit < 0x80000000) (x_le : x * x ≤ limit) (limit_eq : registers.limit = limit)
    (x_eq : registers.x = x) (size : table.size = limit + 1) :
    ∃ registers' result, Table.toggleRow limit x 1 table = .done result ∧
      result.size = limit + 1 ∧ registers'.limit = limit ∧ registers'.x = x + 1 ∧
      Moves frames room store (230 + limit) (rowLoop ++ increment SieveLocal.x) registers table
        registers' result := by
  obtain ⟨registers', result, run, result_size, limit_eq', x_eq', loops⟩ :=
    row_loops frames room store limit_lt x_le 1 (by omega) { registers with y := 1 } limit_eq
      x_eq rfl table size
  have first : Moves frames room store 2 [const64 1, set SieveLocal.y] registers table
      { registers with y := 1 } table :=
    Moves.of_passes fun memory => Passes.of_straight rfl rfl
  have next : Moves frames room store (1 + 3) (increment SieveLocal.x) registers' result
      { registers' with x := registers'.x + 1 } result :=
    Moves.of_passes fun memory => increment_passes _ _ _ _ _ _ rfl
  exact ⟨{ registers' with x := registers'.x + 1 }, result, run, result_size, limit_eq',
    congrArg (· + 1) x_eq', ((first.append loops.moves).append next).mono (by omega)⟩

/-- The loop over the rows flips what the reference flips. -/
theorem rows_loops (frames : Frames) (room : Headroom) (store : Store HostState)
    (limit_lt : limit < 0x80000000) (x : ℕ) (x_le : x ≤ limit + 1) (registers : Registers)
    (limit_eq : registers.limit = limit) (x_eq : registers.x = x) (table : Array Bool)
    (size : table.size = limit + 1) :
    ∃ registers' result, Table.toggleRows limit x table = .done result ∧
      result.size = limit + 1 ∧ registers'.limit = limit ∧
      Loops frames room store (250 + limit + (limit + 2 - x)) (squareExceedsLimit SieveLocal.x)
        (rowLoop ++ increment SieveLocal.x) registers table registers' result := by
  induction x using Table.upToRoot_induct limit generalizing registers table with
  | beyond x beyond =>
    refine ⟨registers, table, Table.toggleRows_beyond (by omega) beyond, size, limit_eq, ?_⟩
    refine (Loops.stop (registers.limit < registers.x * registers.x)
      (fun store => squareExceedsLimit_passes rfl (by omega) (by omega)) ?_).mono (by omega)
    rwa [limit_eq, x_eq]
  | within x within hypothesis =>
    have x_small := Table.le_of_square_le within
    obtain ⟨registers₁, row, through, row_size, limit_eq₁, x_eq₁, turn⟩ :=
      row_moves frames room store limit_lt within limit_eq x_eq size
    obtain ⟨registers', result, run, result_size, limit_eq', rest⟩ := hypothesis (by omega)
      registers₁ limit_eq₁ x_eq₁ row row_size
    refine ⟨registers', result, (Table.toggleRows_within within limit_lt through).trans run,
      result_size, limit_eq', ?_⟩
    refine (Loops.again (registers.limit < registers.x * registers.x)
      (fun store => squareExceedsLimit_passes rfl (by omega) (by omega)) ?_ turn rest).mono
      (by omega)
    rw [limit_eq, x_eq]
    omega

theorem toggleLoop_moves (frames : Frames) (room : Headroom) (store : Store HostState)
    (registers : Registers) (limit_lt : limit < 0x80000000) (limit_eq : registers.limit = limit)
    (size : table.size = limit + 1) :
    ∃ registers' result, Table.toggleRows limit 1 table = .done result ∧
      result.size = limit + 1 ∧ registers'.limit = limit ∧
      Moves frames room store (260 + 2 * limit) toggleLoop registers table registers' result := by
  obtain ⟨registers', result, run, result_size, limit_eq', loops⟩ :=
    rows_loops frames room store limit_lt 1 (by omega) { registers with x := 1 } limit_eq rfl
      table size
  have first : Moves frames room store 2 [const64 1, set SieveLocal.x] registers table
      { registers with x := 1 } table :=
    Moves.of_passes fun memory => Passes.of_straight rfl rfl
  exact ⟨registers', result, run, result_size, limit_eq', (first.append loops.moves).mono
    (by omega)⟩

end TableKernels.Compiled
