import TableKernels.Proofs.Compiled.Clear
import TableKernels.Proofs.Compiled.Toggle

/-!
# The compiled sieve

A call of the compiled sieve refuses an argument outside the domain, gives a fixed answer below 5,
runs out of memory when its table does not fit the declared limit, and answers otherwise with the
greatest prime, whatever memory holds at the start. Behind the flips and at the end memory holds the
flags that the reference has there.
-/

namespace TableKernels.Compiled

open Wasm

variable {frames : Frames} {room inside : Headroom} {store : Store HostState}
  {locals : Array Word} {rest : List Instr} {limit : ℕ}

theorem sieve_refused {value : UInt64} {check : ArgumentCheck}
    (held : locals[SieveLocal.limit.toNat]? = some (.i64 value)) (lent : 4 ≤ room.cells)
    (refused : refusal? sieveBound value.toInt64 = some check) :
    Ends frames.program room 15 Compiled.sieve.code [] locals store
      (.trap .unreachable (aborted (argumentAbort .sieve check value) store)) := by
  simp only [Compiled.sieve, List.append_assoc]
  exact argumentGuard_trap held lent refused

/-- The locals of the sieve when it starts. -/
def Registers.ofLimit (limit : ℕ) : Registers := ⟨limit, 0, 0, 0, 0, 0, 0, 0⟩

theorem guard_passes (small : limit ≤ 2147483646) :
    Passes frames.program room 8 (argumentGuard SieveLocal.limit .sieve sieveBound) []
      (Registers.ofLimit limit).words store [] (Registers.ofLimit limit).words store := by
  have value : (UInt64.ofNat limit).toInt64.toInt = limit := toInt_ofNat64 (by omega)
  refine argumentGuard_passes _ rfl (refusal?_eq_none_iff.mpr ⟨?_, ?_⟩)
  · exact value ▸ Int.natCast_nonneg limit
  · change (UInt64.ofNat limit).toInt64.toInt ≤ 2147483646
    omega

theorem atMost_passes (frames : Frames) (room : Headroom) (store : Store HostState)
    {bound : Int64} (limit number : ℕ) (same : bound.toUInt64 = UInt64.ofNat number)
    (limit_lt : limit < 0x8000000000000000) (number_lt : number < 0x8000000000000000) :
    Passes frames.program room 3 [get SieveLocal.limit, const64 bound, apply .i64LeS] []
      (Registers.ofLimit limit).words store [.i32 (truthOf (limit ≤ number))]
      (Registers.ofLimit limit).words store := by
  rw [← truth_le_signed limit_lt number_lt, ← same]
  exact Passes.of_straight rfl rfl

theorem fixedAnswer_passes {bound : Int64} {answer : Int32} (number : ℕ)
    (same : bound.toUInt64 = UInt64.ofNat number) (small : limit ≤ 2147483646)
    (number_lt : number < limit) :
    Passes frames.program room 4 (fixedAnswer bound answer) [] (Registers.ofLimit limit).words
      store [] (Registers.ofLimit limit).words store := by
  have test := atMost_passes frames room store limit number same (by omega) (by omega)
  rw [truthOf_eq_zero (by omega)] at test
  exact test.append (Passes.ifThen_zero _)

theorem fixedAnswer_ends {bound : Int64} {answer : Int32} (number : ℕ)
    (same : bound.toUInt64 = UInt64.ofNat number) (number_lt : number < 0x80000000)
    (le : limit ≤ number) :
    Ends frames.program room 6 (fixedAnswer bound answer ++ rest) []
      (Registers.ofLimit limit).words store (.ret [.i32 answer.toUInt32] store) := by
  have answers : Ends frames.program room 2 [const32 answer, .ret] []
      (Registers.ofLimit limit).words store (.ret [.i32 answer.toUInt32] store) :=
    Ends.of_exec fun _ => rfl
  exact (atMost_passes _ _ _ _ number same (by omega) (by omega)).then_ends
    (Ends.ifThen_final (truthOf_ne_zero le) _ _ answers trivial)

theorem sieve_fixed (le : limit ≤ 4) :
    Ends frames.program room 40 Compiled.sieve.code [] (Registers.ofLimit limit).words store
      (.ret [.i32 (Table.sentinel limit).toUInt32] store) := by
  simp only [Compiled.sieve, List.append_assoc]
  -- Each fixed answer is for what the ones before it have let pass.
  refine ((guard_passes (by omega)).then_ends ?_).mono (show _ + 30 ≤ 40 by decide)
  rcases Nat.lt_or_ge 0 limit with pos | zero
  · refine ((fixedAnswer_passes 0 rfl (by omega) pos).then_ends ?_).mono
      (show _ + 20 ≤ 30 by decide)
    rcases Nat.lt_or_ge 1 limit with one_lt | one
    · refine ((fixedAnswer_passes 1 rfl (by omega) one_lt).then_ends ?_).mono
        (show _ + 16 ≤ 20 by decide)
      rcases Nat.lt_or_ge 2 limit with two_lt | two
      · have answer : Table.sentinel limit = 3 := by
          obtain rfl | rfl : limit = 3 ∨ limit = 4 := by omega
          · rfl
          · rfl
        rw [answer]
        exact ((fixedAnswer_passes 2 rfl (by omega) two_lt).then_ends
          (fixedAnswer_ends 4 rfl (by decide) le)).mono (by decide)
      · obtain rfl : limit = 2 := by omega
        exact (fixedAnswer_ends 2 rfl (by decide) two).mono (by decide)
    · obtain rfl : limit = 1 := by omega
      exact (fixedAnswer_ends 1 rfl (by decide) one).mono (by decide)
  · obtain rfl : limit = 0 := by omega
    exact (fixedAnswer_ends 0 rfl (by decide) zero).mono (by decide)

/-! ## A table -/

/-- The sieve before it needs a table. -/
def startCode : List Instr :=
  argumentGuard SieveLocal.limit .sieve sieveBound ++ fixedAnswer 0 0 ++ fixedAnswer 1 1 ++
    fixedAnswer 2 2 ++ fixedAnswer 4 3

/-- The sieve up to the end of its flips. -/
def flipCode : List Instr := startCode ++ clearTable ++ toggleLoop

/-- The sieve behind its flips. -/
def searchCode : List Instr := squareLoop ++ scanLoop ++ [const32 0]

theorem code_sieve : Compiled.sieve.code = flipCode ++ searchCode := by
  simp only [Compiled.sieve, startCode, flipCode, searchCode, List.append_assoc]

theorem startCode_passes (frames : Frames) (room : Headroom) (store : Store HostState)
    (le : 5 ≤ limit) (small : limit ≤ 2147483646) :
    Passes frames.program room 24 startCode [] (Registers.ofLimit limit).words store []
      (Registers.ofLimit limit).words store := by
  have above {bound : Int64} {answer : Int32} (number : ℕ)
      (same : bound.toUInt64 = UInt64.ofNat number) (lt : number < limit) :
      Passes frames.program room 4 (fixedAnswer bound answer) [] (Registers.ofLimit limit).words
        store [] (Registers.ofLimit limit).words store :=
    fixedAnswer_passes number same small lt
  exact ((((guard_passes small).append (above 0 rfl (by omega))).append
    (above 1 rfl (by omega))).append (above 2 rfl (by omega))).append (above 4 rfl (by omega))

theorem tableSize_passes (frames : Frames) (room : Headroom) (registers : Registers)
    (store : Store HostState) :
    Passes frames.program room 4
      [get SieveLocal.limit, const64 1, apply .i64Add, const32 EntryPoint.sieve.site] []
      registers.words store
      [.i32 EntryPoint.sieve.site.toUInt32, .i64 (UInt64.ofNat (registers.limit + 1))]
      registers.words store := by
  rw [UInt64.ofNat_add]
  exact Passes.of_straight rfl rfl

theorem sieve_out_of_memory (declared : Declared store.memory) (le : 5 ≤ limit)
    (small : limit ≤ 2147483646) (entered : room.enter? frames.reserve = some inside)
    (lent : 4 ≤ inside.cells) (refused : store.memory.maxPages < pagesForTable (limit + 1)) :
    Ends frames.program room 70 Compiled.sieve.code [] (Registers.ofLimit limit).words store
      (.trap .unreachable (aborted (tableAbort EntryPoint.sieve.site (limit + 1)) store)) := by
  have reserve := callReserve_trap _ [] ((Registers.ofLimit limit).words) EntryPoint.sieve.site
    ([const32 tableBase, const32 0, get SieveLocal.limit, const64 1, apply .i64Add,
      apply .i32WrapI64, .op (.memoryFill 0)] ++
        (toggleLoop ++ (squareLoop ++ (scanLoop ++ [const32 0])))) declared (by omega) entered
    lent refused
  have started := (startCode_passes frames room store le small).then_ends
    ((tableSize_passes _ _ _ store).then_ends reserve)
  simp only [code_sieve, flipCode, searchCode, clearTable, List.append_assoc] at started ⊢
  exact started.mono (by decide)

/-- Clears the table, whatever it held. -/
theorem clearTable_passes (frames : Frames) (room : Headroom) (declared : Declared store.memory)
    (small : limit ≤ 2147483646) (entered : room.enter? frames.reserve = some inside)
    (fits : pagesForTable (limit + 1) ≤ store.memory.maxPages) :
    ∃ memory, Tabled store.memory (Array.replicate (limit + 1) false) memory ∧
      Passes frames.program room 40 clearTable [] (Registers.ofLimit limit).words store []
        (Registers.ofLimit limit).words (onMemory store memory) := by
  have framed : Framed (limit + 1) store.memory (reserved (limit + 1) store.memory) :=
    Framed.reserved declared
  have within := framed.table_inside
  have reserve := callReserve_passes _ [] ((Registers.ofLimit limit).words) EntryPoint.sieve.site
    declared (by omega) entered fits
  refine ⟨_, Tabled.fill framed, ?_⟩
  have operands : Passes frames.program room 6
      [const32 tableBase, const32 0, get SieveLocal.limit, const64 1, apply .i64Add,
        apply .i32WrapI64] [] (Registers.ofLimit limit).words
      { store with memory := reserved (limit + 1) store.memory }
      [.i32 (UInt32.ofNat (limit + 1)), .i32 0, .i32 (UInt32.ofNat heapStart)]
      (Registers.ofLimit limit).words
      { store with memory := reserved (limit + 1) store.memory } := by
    rw [← UInt64.toUInt32_ofNat', UInt64.ofNat_add]
    exact Passes.of_straight rfl rfl
  have fill : Passes frames.program room 1 [.op (.memoryFill 0)]
      [.i32 (UInt32.ofNat (limit + 1)), .i32 0, .i32 (UInt32.ofNat heapStart)]
      (Registers.ofLimit limit).words
      { store with memory := reserved (limit + 1) store.memory } []
      (Registers.ofLimit limit).words
      (onMemory store ((reserved (limit + 1) store.memory).withBytes fun bytes =>
        Memory.fillBytes bytes heapStart 0 (limit + 1))) := by
    have base : (UInt32.ofNat heapStart).toNat = heapStart := rfl
    have count : (UInt32.ofNat (limit + 1)).toNat = limit + 1 := toNat_ofNat32 (by omega)
    refine Passes.op ?_
    simp only [Op.step, Store.fill, Store.memoryAt, if_true, base, count, Store.changeBytes,
      Store.changeMemory, within, onMemory]
    rfl
  have size := tableSize_passes frames room (Registers.ofLimit limit) store
  exact ((size.append reserve).append (operands.append fill)).mono (show _ ≤ 40 by decide)

/-- Behind the flips memory holds the flags that the reference has there. -/
theorem flipCode_passes (frames : Frames) (room : Headroom) (declared : Declared store.memory)
    (le : 5 ≤ limit) (small : limit ≤ 2147483646)
    (entered : room.enter? frames.reserve = some inside)
    (fits : pagesForTable (limit + 1) ≤ store.memory.maxPages) :
    ∃ (registers : Registers) (toggled : Array Bool) (memory : Memory),
      Table.toggleRows limit 1 (Array.replicate (limit + 1) false) = .done toggled ∧
      toggled.size = limit + 1 ∧ registers.limit = limit ∧
      Tabled store.memory toggled memory ∧
      Passes frames.program room (330 + 2 * limit) flipCode [] (Registers.ofLimit limit).words
        store [] registers.words (onMemory store memory) := by
  have limit_lt : limit < 0x80000000 := by omega
  obtain ⟨cleared, clean, clear⟩ := clearTable_passes frames room declared small entered fits
  obtain ⟨registers, toggled, toggle_run, size, limit_eq, toggle⟩ :=
    toggleLoop_moves frames room store (Registers.ofLimit limit) limit_lt rfl
      Array.size_replicate
  obtain ⟨memory, tabled, toggle_passes⟩ := toggle cleared clean
  refine ⟨registers, toggled, memory, toggle_run, size, limit_eq, tabled, ?_⟩
  exact (((startCode_passes frames room store le small).append clear).append
    toggle_passes).mono (by omega)

/-- Behind the flips the sieve goes on to the flags that the reference leaves, and answers. -/
theorem searchCode_ends (frames : Frames) (room : Headroom) {registers : Registers}
    {toggled : Array Bool} {memory : Memory} (le : 5 ≤ limit) (small : limit ≤ 2147483646)
    (toggles : Table.toggleRows limit 1 (Array.replicate (limit + 1) false) = .done toggled)
    (size : toggled.size = limit + 1) (limit_eq : registers.limit = limit)
    (tabled : Tabled store.memory toggled memory) :
    ∃ flags memory', Table.clearSquares toggled.size 5 toggled = .done flags ∧
      flags.size = limit + 1 ∧ Tabled store.memory flags memory' ∧
      Ends frames.program room (130 + 3 * limit) searchCode [] registers.words
        (onMemory store memory)
        (.ret [.i32 (UInt32.ofNat (Table.greatestPrime limit))] (onMemory store memory')) := by
  have limit_lt : limit < 0x80000000 := by omega
  obtain ⟨registers', flags, square_run, size', limit_eq', square⟩ :=
    squareLoop_moves frames room store limit_lt le limit_eq size
  obtain ⟨memory', tabled', square_passes⟩ := square memory tabled
  -- The two loops leave the table that the reference leaves, so its flags are known.
  have same : Table.sieveTable limit (Array.replicate (limit + 1) false) = .done flags := by
    rw [Table.sieveTable, toggles, Run.done_bind, square_run]
  obtain ⟨flagged, above⟩ := Table.greatestPrime_flagged le limit_lt same
  have scan := scanLoop_ends frames room [const32 0] tabled' (by omega) limit_eq' size' flagged
    (Nat.findGreatest_le limit) above
  refine ⟨flags, memory', square_run, size', tabled', ?_⟩
  rw [searchCode, List.append_assoc]
  exact (square_passes.then_ends scan).mono (by omega)

/-- A table that fits lets the sieve answer. -/
theorem sieve_answers (declared : Declared store.memory) (le : 5 ≤ limit)
    (small : limit ≤ 2147483646) (entered : room.enter? frames.reserve = some inside)
    (fits : pagesForTable (limit + 1) ≤ store.memory.maxPages) :
    ∃ flags memory,
      Table.sieveTable limit (Array.replicate (limit + 1) false) = .done flags ∧
      flags.size = limit + 1 ∧ Tabled store.memory flags memory ∧
      Ends frames.program room (600 + 5 * limit) Compiled.sieve.code []
        (Registers.ofLimit limit).words store
        (.ret [.i32 (UInt32.ofNat (Table.greatestPrime limit))] (onMemory store memory)) := by
  obtain ⟨registers, toggled, between, toggles, size, limit_eq, tabled, flips⟩ :=
    flipCode_passes frames room declared le small entered fits
  obtain ⟨flags, memory, clears, size', tabled', search⟩ :=
    searchCode_ends frames room le small toggles size limit_eq tabled
  refine ⟨flags, memory, ?_, size', tabled', ?_⟩
  · rw [Table.sieveTable, toggles, Run.done_bind, clears]
  · rw [code_sieve]
    exact (flips.then_ends search).mono (by omega)

end TableKernels.Compiled
