import TableKernels.Proofs.Compiled.Registers

/-!
# Compiled clearing

The compiled loop over the squares clears the same flags as the loop over a table does, and the
search from the top returns the greatest number that is still flagged.
-/

namespace TableKernels.Compiled

open Wasm

variable {frames : Frames} {room : Headroom} {store : Store HostState}
  {registers : Registers} {table : Array Bool} {limit step r i : ℕ}

/-- The code of one step, which clears a flag and goes on to the next multiple. -/
def stepCode : List Instr :=
  flagAddress SieveLocal.i ++
    [const32 0, .op (.i32Store8 (.first 0 0)),
      get SieveLocal.i, get SieveLocal.step, apply .i64Add, set SieveLocal.i]

theorem step_moves (inside : registers.i < table.size) (small : table.size ≤ 0x80000000) :
    Moves frames room store 10 stepCode registers table
      { registers with i := registers.i + registers.step }
      (table.setIfInBounds registers.i false) := by
  intro memory tabled
  refine ⟨_, tabled.store inside false, ?_⟩
  have place := flagAddress_passes frames room (onMemory store memory) [] SieveLocal.i
    registers.words rfl
  have zero : Passes frames.program room 1 [const32 0]
      [.i32 (UInt32.ofNat (heapStart + registers.i))] registers.words (onMemory store memory)
      [.i32 0, .i32 (UInt32.ofNat (heapStart + registers.i))] registers.words
      (onMemory store memory) :=
    Passes.of_straight rfl rfl
  have save := storeFlag_passes frames room store [] registers.words 0 false tabled inside small
    rfl
  have next : ∀ memory, Passes frames.program room 4
      [get SieveLocal.i, get SieveLocal.step, apply .i64Add, set SieveLocal.i] []
      registers.words (onMemory store memory) []
      { registers with i := registers.i + registers.step }.words (onMemory store memory) := by
    intro memory
    refine Passes.of_straight ?_ rfl
    simp only [Registers.words, UInt64.ofNat_add]
    rfl
  exact (place.append (zero.cons (save.cons (next _)))).mono (by decide)

theorem beyondLimit_passes (limit_lt : registers.limit < 0x8000000000000000)
    (i_lt : registers.i < 0x8000000000000000) (store : Store HostState) :
    Passes frames.program room 3 [get SieveLocal.i, get SieveLocal.limit, apply .i64GtS] []
      registers.words store [.i32 (truthOf (registers.limit < registers.i))] registers.words
      store := by
  rw [← truth_lt_signed limit_lt i_lt]
  exact Passes.of_straight rfl rfl

/-- The loop over the multiples clears what the reference clears. -/
theorem steps_loops (frames : Frames) (room : Headroom) (store : Store HostState)
    (limit_lt : limit < 0x80000000) (step_pos : 0 < step) (step_le : step ≤ limit) (i : ℕ)
    (i_le : i ≤ limit + step) (registers : Registers) (limit_eq : registers.limit = limit)
    (step_eq : registers.step = step) (i_eq : registers.i = i) (table : Array Bool)
    (size : table.size = limit + 1) :
    ∃ registers' result, Table.clearSteps table.size step i table = .done result ∧
      result.size = limit + 1 ∧ registers'.limit = limit ∧ registers'.r = registers.r ∧
      Loops frames room store (20 + (limit + step - i))
        [get SieveLocal.i, get SieveLocal.limit, apply .i64GtS] stepCode registers table
        registers' result := by
  rcases Nat.lt_or_ge i table.size with within | beyond
  · obtain ⟨registers', result, run, result_size, limit_eq', r_eq, rest⟩ :=
      steps_loops _ _ _ limit_lt step_pos step_le (i + step) (by omega)
        { registers with i := registers.i + registers.step } limit_eq step_eq
        (by rw [i_eq, step_eq]) (table.setIfInBounds registers.i false)
        (by rw [Array.size_setIfInBounds, size])
    rw [Array.size_setIfInBounds, i_eq] at run
    refine ⟨registers', result, (Table.clearSteps_within within step_pos).trans run, result_size,
      limit_eq', r_eq, ?_⟩
    exact (Loops.again (registers.limit < registers.i) (beyondLimit_passes (by omega) (by omega))
      (by omega) (step_moves (by omega) (by omega)) rest).mono (by omega)
  · refine ⟨registers, table, Table.clearSteps_beyond beyond, size, limit_eq, rfl, ?_⟩
    exact (Loops.stop (registers.limit < registers.i) (beyondLimit_passes (by omega) (by omega))
      (by omega)).mono (by omega)
termination_by limit + 1 - i

theorem clearLoop_moves (frames : Frames) (room : Headroom) (store : Store HostState)
    (registers : Registers) (limit_lt : limit < 0x80000000) (step_pos : 0 < step)
    (step_le : step ≤ limit) (limit_eq : registers.limit = limit)
    (step_eq : registers.step = step) (size : table.size = limit + 1) :
    ∃ registers' result, Table.clearSteps table.size step step table = .done result ∧
      result.size = limit + 1 ∧ registers'.limit = limit ∧ registers'.r = registers.r ∧
      Moves frames room store (30 + limit) clearLoop registers table registers' result := by
  obtain ⟨registers', result, run, result_size, limit_eq', r_eq, loops⟩ :=
    steps_loops frames room store limit_lt step_pos step_le step (by omega)
      { registers with i := registers.step } limit_eq step_eq step_eq table size
  have first : Moves frames room store 2 [get SieveLocal.step, set SieveLocal.i] registers table
      { registers with i := registers.step } table :=
    Moves.of_passes fun memory => Passes.of_straight rfl rfl
  exact ⟨registers', result, run, result_size, limit_eq', r_eq,
    (first.append loops.moves).mono (by omega)⟩

/-! ## Squares -/

/-- The code for one number, which goes on to the next. -/
def squareCode : List Instr :=
  flagAddress SieveLocal.r ++ [.op (.i32Load8U (.first 0 0)), .ifThen clearLoop] ++
    increment SieveLocal.r

/-- Takes the square of `r` and compares it with the limit. -/
theorem square_passes (limit_lt : registers.limit < 0x80000000) (r_le : registers.r ≤ 0x80000000)
    (store : Store HostState) :
    Passes frames.program room 6
      [get SieveLocal.r, get SieveLocal.r, apply .i64Mul, .op (.localTee SieveLocal.step),
        get SieveLocal.limit, apply .i64GtS] [] registers.words store
      [.i32 (truthOf (registers.limit < registers.r * registers.r))]
      { registers with step := registers.r * registers.r }.words store := by
  have square := Nat.mul_self_le_mul_self r_le
  rw [← truth_lt_signed (by omega) (by omega)]
  refine Passes.of_straight ?_ rfl
  simp only [Registers.words, UInt64.ofNat_mul]
  rfl

theorem flag_passes (frames : Frames) (room : Headroom) (locals : Array Word) (index : UInt32)
    (number : ℕ) {memory : Memory}
    (held : locals[index.toNat]? = some (.i64 (UInt64.ofNat number)))
    (tabled : Tabled store.memory table memory) (inside : number < table.size)
    (small : table.size ≤ 0x80000000) :
    Passes frames.program room 5 (flagAddress index ++ [.op (.i32Load8U (.first 0 0))]) [] locals
      (onMemory store memory) [.i32 (truthOf (Table.flag table number = true))] locals
      (onMemory store memory) := by
  have byte : (flagByte (Table.flag table number)).toUInt32 =
      truthOf (Table.flag table number = true) := by
    cases Table.flag table number <;> rfl
  rw [← byte]
  exact (flagAddress_passes _ _ _ _ _ _ held).append (loadFlag_passes _ _ _ _ tabled inside small)

/-- One number whose square is within the limit. -/
theorem square_moves (frames : Frames) (room : Headroom) (store : Store HostState)
    (limit_lt : limit < 0x80000000) (r_pos : 0 < r) (within : r * r ≤ limit)
    (limit_eq : registers.limit = limit) (r_eq : registers.r = r) (size : table.size = limit + 1) :
    ∃ registers' result, Table.clearSquares table.size r table =
        Table.clearSquares table.size (r + 1) result ∧
      result.size = limit + 1 ∧ registers'.limit = limit ∧ registers'.r = r + 1 ∧
      Moves frames room store (50 + limit) squareCode { registers with step := r * r } table
        registers' result := by
  have r_small := Table.le_of_square_le within
  have test : ∀ memory, Tabled store.memory table memory → Passes frames.program room 5
      (flagAddress SieveLocal.r ++ [.op (.i32Load8U (.first 0 0))]) []
      { registers with step := r * r }.words (onMemory store memory)
      [.i32 (truthOf (Table.flag table r = true))] { registers with step := r * r }.words
      (onMemory store memory) :=
    fun memory tabled => flag_passes _ _ _ _ _ (by rw [← r_eq]; rfl) tabled (by omega) (by omega)
  have next : ∀ (registers' : Registers) result, Moves frames room store (1 + 3)
      (increment SieveLocal.r) registers' result { registers' with r := registers'.r + 1 }
      result :=
    fun registers' result => Moves.of_passes fun memory => increment_passes _ _ _ _ _ _ rfl
  rcases Bool.eq_false_or_eq_true (Table.flag table r) with flagged | unflagged
  · obtain ⟨registers', result, run, result_size, limit_eq', r_eq', clear⟩ :=
      clearLoop_moves frames room store { registers with step := r * r } limit_lt
        (Nat.mul_pos r_pos r_pos) within limit_eq rfl size
    have branch := Moves.ifThen test (fun _ => clear) (fun other => absurd flagged other)
    exact ⟨{ registers' with r := registers'.r + 1 }, result,
      Table.clearSquares_take (by omega) (by omega) flagged run, result_size, limit_eq',
      by rw [r_eq', ← r_eq], (branch.append (next _ _)).mono (by omega)⟩
  -- The branch that is not taken may be given any bound.
  · have skip (holds : Table.flag table r = true) : Moves frames room store 0 clearLoop
        { registers with step := r * r } table { registers with step := r * r } table :=
      absurd (holds.symm.trans unflagged) (by decide)
    have branch := Moves.ifThen test skip (fun _ => ⟨rfl, rfl⟩)
    exact ⟨{ registers with step := r * r, r := registers.r + 1 }, table,
      Table.clearSquares_skip (by omega) (by omega) unflagged, size, limit_eq,
      by rw [← r_eq], (branch.append (next _ _)).mono (by omega)⟩

/-- The loop over the squares clears what the reference clears. -/
theorem squares_loops (frames : Frames) (room : Headroom) (store : Store HostState)
    (limit_lt : limit < 0x80000000) (r : ℕ) (r_pos : 0 < r) (r_le : r ≤ limit + 1)
    (registers : Registers) (limit_eq : registers.limit = limit) (r_eq : registers.r = r)
    (table : Array Bool) (size : table.size = limit + 1) :
    ∃ registers' result, Table.clearSquares table.size r table = .done result ∧
      result.size = limit + 1 ∧ registers'.limit = limit ∧
      Loops frames room store (70 + limit + (limit + 2 - r))
        [get SieveLocal.r, get SieveLocal.r, apply .i64Mul, .op (.localTee SieveLocal.step),
          get SieveLocal.limit, apply .i64GtS] squareCode registers table registers' result := by
  induction r using Table.upToRoot_induct limit generalizing registers table with
  | beyond r beyond =>
    refine ⟨_, table, Table.clearSquares_beyond (by omega) (by omega), size, ?_,
      (Loops.stop (registers.limit < registers.r * registers.r)
        (square_passes (by omega) (by omega)) ?_).mono (by omega)⟩
    · exact limit_eq
    · rwa [limit_eq, r_eq]
  | within r within hypothesis =>
    have r_small := Table.le_of_square_le within
    obtain ⟨registers₁, cleared, step, cleared_size, limit_eq₁, r_eq₁, turn⟩ :=
      square_moves frames room store limit_lt r_pos within limit_eq r_eq size
    obtain ⟨registers', result, run, result_size, limit_eq', rest⟩ := hypothesis (by omega)
      (by omega) registers₁ limit_eq₁ r_eq₁ cleared cleared_size
    rw [cleared_size, ← size] at run
    refine ⟨registers', result, step.trans run, result_size, limit_eq', ?_⟩
    rw [← r_eq] at turn
    refine (Loops.again (registers.limit < registers.r * registers.r)
      (square_passes (by omega) (by omega)) ?_ turn rest).mono (by omega)
    rw [limit_eq, r_eq]
    omega

theorem squareLoop_moves (frames : Frames) (room : Headroom) (store : Store HostState)
    (limit_lt : limit < 0x80000000) (le : 5 ≤ limit) (limit_eq : registers.limit = limit)
    (size : table.size = limit + 1) :
    ∃ registers' result, Table.clearSquares table.size 5 table = .done result ∧
      result.size = limit + 1 ∧ registers'.limit = limit ∧
      Moves frames room store (80 + 2 * limit) squareLoop registers table registers' result := by
  obtain ⟨registers', result, run, result_size, limit_eq', loops⟩ :=
    squares_loops frames room store limit_lt 5 (by omega) (by omega) { registers with r := 5 }
      limit_eq rfl table size
  have first : Moves frames room store 2 [const64 5, set SieveLocal.r] registers table
      { registers with r := 5 } table :=
    Moves.of_passes fun memory => Passes.of_straight rfl rfl
  exact ⟨registers', result, run, result_size, limit_eq',
    (first.append loops.moves).mono (by omega)⟩

/-! ## The search from the top -/

/-- The code that looks at one flag and goes on to the one below. -/
def scanCode : List Instr :=
  flagAddress SieveLocal.i ++
    [.op (.i32Load8U (.first 0 0)), .ifThen [get SieveLocal.i, apply .i32WrapI64, .ret],
      get SieveLocal.i, const64 1, apply .i64Sub, set SieveLocal.i]

theorem belowZero_passes (frames : Frames) (room : Headroom) (registers : Registers)
    (i_lt : registers.i < 0x8000000000000000) (store : Store HostState) :
    Passes frames.program room 3 [get SieveLocal.i, const64 0, apply .i64LtS] [] registers.words
      store [.i32 0] registers.words store := by
  rw [← truthOf_eq_zero (Nat.not_lt_zero registers.i), ← truth_lt_signed i_lt (by decide)]
  exact Passes.of_straight rfl rfl

/-- The search returns the greatest number that is flagged. -/
theorem scan_ends (frames : Frames) (room : Headroom) {found : ℕ} {memory : Memory}
    (tabled : Tabled store.memory table memory) (small : table.size ≤ 0x80000000)
    (flagged : Table.flag table found = true) (i : ℕ) (found_le : found ≤ i)
    (i_lt : i < table.size)
    (above : ∀ other, found < other → other ≤ i → Table.flag table other = false)
    (registers : Registers) (i_eq : registers.i = i) :
    Ends frames.program room (30 + (i - found))
      (turns [get SieveLocal.i, const64 0, apply .i64LtS] scanCode) [] registers.words
      (onMemory store memory) (.ret [.i32 (UInt32.ofNat found)] (onMemory store memory)) := by
  have test := belowZero_passes frames room registers (by omega) (onMemory store memory)
  have look := flag_passes frames room registers.words SieveLocal.i registers.i rfl tabled
    (by omega) small
  -- The flag of `found` is met before the index runs below zero, so the test never ends the loop.
  rcases Nat.eq_or_lt_of_le found_le with same | lt
  · have i_found : registers.i = found := by omega
    have answer : Ends frames.program room 3 [get SieveLocal.i, apply .i32WrapI64, .ret] []
        registers.words (onMemory store memory)
        (.ret [.i32 (UInt32.ofNat found)] (onMemory store memory)) := by
      rw [← UInt64.toUInt32_ofNat', ← i_found]
      exact Ends.of_exec fun _ => rfl
    have leave := look.then_ends (Ends.ifThen_final (truthOf_ne_zero (by rw [i_found, flagged]))
      [] [get SieveLocal.i, const64 1, apply .i64Sub, set SieveLocal.i, .br 0] answer trivial)
    exact (Ends.turns_final scanCode test leave trivial).mono (by omega)
  · have unflagged := above i lt (le_refl i)
    rw [i_eq, truthOf_eq_zero (by rw [unflagged]; decide)] at look
    have next : Passes frames.program room 4
        [get SieveLocal.i, const64 1, apply .i64Sub, set SieveLocal.i] [] registers.words
        (onMemory store memory) [] { registers with i := registers.i - 1 }.words
        (onMemory store memory) := by
      refine Passes.of_straight ?_ rfl
      simp only [Registers.words, ← sub_ofNat64 (by omega : 1 ≤ registers.i) (by omega)]
      rfl
    have rest := scan_ends frames room tabled small flagged (i - 1) (by omega) (by omega)
      (fun other gt le => above other gt (by omega)) { registers with i := registers.i - 1 }
      (by rw [i_eq])
    have turn := look.append (Passes.cons (Passes.ifThen_zero
      [get SieveLocal.i, apply .i32WrapI64, .ret]) next)
    exact (Ends.turns_again test turn rest).mono (by omega)

/-- The search ends the sieve with the greatest number that is flagged. -/
theorem scanLoop_ends (frames : Frames) (room : Headroom) {found : ℕ} {memory : Memory}
    (rest : List Instr) (tabled : Tabled store.memory table memory)
    (small : table.size ≤ 0x80000000) (limit_eq : registers.limit = limit)
    (size : table.size = limit + 1) (flagged : Table.flag table found = true)
    (found_le : found ≤ limit)
    (above : ∀ other, found < other → other ≤ limit → Table.flag table other = false) :
    Ends frames.program room (40 + limit) (scanLoop ++ rest) [] registers.words
      (onMemory store memory) (.ret [.i32 (UInt32.ofNat found)] (onMemory store memory)) := by
  have first : Passes frames.program room 2 [get SieveLocal.limit, set SieveLocal.i] []
      registers.words (onMemory store memory) [] { registers with i := registers.limit }.words
      (onMemory store memory) :=
    Passes.of_straight rfl rfl
  have search := scan_ends frames room tabled small flagged limit found_le (by omega) above
    { registers with i := registers.limit } limit_eq
  exact (first.then_ends (Ends.loopUntil_final rest search trivial)).mono (by omega)

end TableKernels.Compiled
