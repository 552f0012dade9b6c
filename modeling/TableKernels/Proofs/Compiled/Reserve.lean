import TableKernels.Proofs.Compiled.Guard

/-!
# Reserving a table

`reserve` gives memory the pages of a table above the host's region. What it adds reads as zero and
what was there stays, so that a table only ever has bytes of its own to write.
-/

namespace TableKernels.Compiled

open Wasm

/-- A memory within the limits that a module declares. -/
structure Declared (memory : Memory) : Prop where
  narrow : memory.wide = false
  whole : memory.size = memory.pages * pageSize
  pages_pos : 1 ≤ memory.pages
  within : memory.pages ≤ memory.maxPages
  ceiling : memory.maxPages ≤ pageCeiling

/-- A memory with at least the pages of a table. -/
def reserved (bytes : ℕ) (memory : Memory) : Memory :=
  if memory.pages < pagesForTable bytes then
    memory.grow (pagesForTable bytes - memory.pages)
  else memory

/-- The diagnostic of a table that does not fit. -/
def tableAbort (site : Int32) (bytes : ℕ) : Abort :=
  ⟨AbortCode.outOfMemory.number, site, 0, (UInt64.ofNat bytes).toUInt32.toInt32⟩

/-- A table needs no more than so many pages if it ends within them. -/
theorem pagesForTable_le_iff (bytes pages : ℕ) :
    pagesForTable bytes ≤ pages ↔ heapStart + bytes ≤ pages * pageSize := by
  simp only [pagesForTable, heapStart, pageSize]
  omega

theorem le_pagesForTable (bytes : ℕ) : heapStart + bytes ≤ pagesForTable bytes * pageSize := by
  simp only [pagesForTable, heapStart, pageSize]
  omega

theorem pagesForTable_shift {bytes : ℕ} (small : bytes < 0x10000000000) :
    (UInt64.ofNat bytes + (131071 : Int64).toUInt64) >>> ((16 : Int64).toUInt64 % 64) =
      UInt64.ofNat (pagesForTable bytes) := by
  have pages_lt : pagesForTable bytes < 0x10000000000000000 := by
    simp only [pagesForTable, heapStart, pageSize]
    omega
  rw [show (131071 : Int64).toUInt64 = UInt64.ofNat 131071 from rfl, ← UInt64.ofNat_add,
    ← UInt64.toNat_inj, UInt64.toNat_shiftRight, toNat_ofNat64 (by omega), toNat_ofNat64 pages_lt]
  change (bytes + 131071) >>> 16 = _
  rw [Nat.shiftRight_eq_div_pow]
  simp only [pagesForTable, heapStart, pageSize]
  omega

variable {frames : Frames} {room inside : Headroom} {stack : List Word} {locals : Array Word}
  {store : Store HostState} {bytes : ℕ} {site : Int32}

theorem pages_passes (declared : Declared store.memory) :
    Passes frames.program room (1 + 1) [.op (.memorySize 0), apply .i64ExtendI32U] stack locals
      store (.i64 (UInt64.ofNat store.memory.pages) :: stack) locals store := by
  have small : store.memory.pages < 0x100000000 := by
    have within := declared.within
    have ceiling := declared.ceiling
    simp only [pageCeiling] at ceiling
    omega
  have extended : (UInt32.ofNat store.memory.pages).toUInt64 = UInt64.ofNat store.memory.pages := by
    rw [← UInt64.toNat_inj, UInt32.toNat_toUInt64, toNat_ofNat32 small, toNat_ofNat64 (by omega)]
  rw [← extended]
  have pages : Passes frames.program room 1 [.op (.memorySize 0)] stack locals store
      (.i32 (UInt32.ofNat store.memory.pages) :: stack) locals store := by
    refine Passes.op ?_
    simp only [Op.step, Store.memoryAt, if_true, Memory.pageWord, declared.narrow,
      Bool.false_eq_true, if_false]
  exact pages.cons (Passes.unary rfl rfl)

/-- The locals of `reserve`: the bytes, the site and the pages. -/
def reserveLocals (bytes : ℕ) (site : Int32) (pages : ℕ) : Array Word :=
  #[.i64 (UInt64.ofNat bytes), .i32 site.toUInt32, .i64 (UInt64.ofNat pages)]

theorem reserve_test (frames : Frames) (room : Headroom) (site : Int32)
    (declared : Declared store.memory) (small : bytes < 0x10000000000) :
    Passes frames.program room (6 + (1 + (1 + 1 + 1)))
      ([get 0, const64 131071, apply .i64Add, const64 16, apply .i64ShrU, set 2] ++
        (get 2 :: ([.op (.memorySize 0), apply .i64ExtendI32U] ++ [apply .i64GtU])))
      [] (reserveLocals bytes site 0) store
      [.i32 (truthOf (store.memory.pages < pagesForTable bytes))]
      (reserveLocals bytes site (pagesForTable bytes)) store := by
  have needed : Passes frames.program room 6
      [get 0, const64 131071, apply .i64Add, const64 16, apply .i64ShrU, set 2] []
      (reserveLocals bytes site 0) store [] (reserveLocals bytes site (pagesForTable bytes))
      store := by
    refine Passes.of_straight ?_ rfl
    simp only [reserveLocals, ← pagesForTable_shift small]
    rfl
  refine needed.append (Passes.cons (get_passes rfl) ((pages_passes declared).append ?_))
  have ceiling := declared.ceiling
  have within := declared.within
  simp only [pageCeiling] at ceiling
  rw [← truth_lt (by omega) (by simp only [pagesForTable, heapStart, pageSize]; omega)]
  exact Passes.of_straight rfl rfl

theorem sub_pages (lt : store.memory.pages < pagesForTable bytes) (small : bytes < 0x10000000000) :
    (UInt64.ofNat (pagesForTable bytes) - UInt64.ofNat store.memory.pages).toUInt32 =
      UInt32.ofNat (pagesForTable bytes - store.memory.pages) := by
  rw [sub_ofNat64 lt.le (by simp only [pagesForTable, heapStart, pageSize]; omega)]
  exact UInt64.toUInt32_ofNat' _

theorem reserve_missing (frames : Frames) (room : Headroom) (site : Int32)
    (declared : Declared store.memory) (small : bytes < 0x10000000000)
    (lt : store.memory.pages < pagesForTable bytes) :
    Passes frames.program room (1 + (1 + 1 + 2))
      (get 2 :: ([.op (.memorySize 0), apply .i64ExtendI32U] ++
        [apply .i64Sub, apply .i32WrapI64]))
      [] (reserveLocals bytes site (pagesForTable bytes)) store
      [.i32 (UInt32.ofNat (pagesForTable bytes - store.memory.pages))]
      (reserveLocals bytes site (pagesForTable bytes)) store := by
  rw [← sub_pages lt small]
  exact Passes.cons (get_passes rfl)
    ((pages_passes declared).append (Passes.of_straight rfl rfl))

/-- The memory grows when the pages are within the limit. -/
theorem grow_passes (declared : Declared store.memory)
    (lt : store.memory.pages < pagesForTable bytes)
    (fits : pagesForTable bytes ≤ store.memory.maxPages) :
    Passes frames.program room (1 + 2) [.op (.memoryGrow 0), const32 (-1), apply .i32Eq]
      [.i32 (UInt32.ofNat (pagesForTable bytes - store.memory.pages))] locals store
      [.i32 0] locals { store with memory := reserved bytes store.memory } := by
  have ceiling := declared.ceiling
  simp only [pageCeiling] at ceiling
  have more : (UInt32.ofNat (pagesForTable bytes - store.memory.pages)).toNat =
      pagesForTable bytes - store.memory.pages := toNat_ofNat32 (by omega)
  have can : store.memory.canGrow (pagesForTable bytes - store.memory.pages) = true := by
    simp only [Memory.canGrow, decide_eq_true_eq]
    omega
  have different : truth (UInt32.ofNat store.memory.pages == (-1 : Int32).toUInt32) = .i32 0 := by
    have : ¬ UInt32.ofNat store.memory.pages = (-1 : Int32).toUInt32 := by
      rw [← UInt32.toNat_inj, toNat_ofNat32 (by omega)]
      change ¬ store.memory.pages = 4294967295
      omega
    simp only [truth, beq_eq_false_iff_ne.mpr this, Bool.false_eq_true, if_false]
  rw [← different]
  have grow : Passes frames.program room 1 [.op (.memoryGrow 0)]
      [.i32 (UInt32.ofNat (pagesForTable bytes - store.memory.pages))] locals store
      [.i32 (UInt32.ofNat store.memory.pages)] locals
      { store with memory := reserved bytes store.memory } := by
    refine Passes.op ?_
    simp only [Op.step, Store.grow, Store.memoryAt, if_true, more, can, Memory.pageWord,
      declared.narrow, Bool.false_eq_true, if_false, Store.changeMemory, reserved, lt]
  exact grow.cons (Passes.of_straight rfl rfl)

theorem grow_refused (small : bytes < 0x10000000000)
    (lt : store.memory.pages < pagesForTable bytes)
    (refused : store.memory.maxPages < pagesForTable bytes) :
    Passes frames.program room (1 + 2) [.op (.memoryGrow 0), const32 (-1), apply .i32Eq]
      [.i32 (UInt32.ofNat (pagesForTable bytes - store.memory.pages))] locals store
      [.i32 1] locals store := by
  have more : (UInt32.ofNat (pagesForTable bytes - store.memory.pages)).toNat =
      pagesForTable bytes - store.memory.pages :=
    toNat_ofNat32 (by simp only [pagesForTable, heapStart, pageSize]; omega)
  have cannot : store.memory.canGrow (pagesForTable bytes - store.memory.pages) = false := by
    simp only [Memory.canGrow, decide_eq_false_iff_not]
    omega
  have refuse : Passes frames.program room 1 [.op (.memoryGrow 0)]
      [.i32 (UInt32.ofNat (pagesForTable bytes - store.memory.pages))] locals store
      [.i32 0xffffffff] locals store := by
    refine Passes.op ?_
    simp only [Op.step, Store.grow, Store.memoryAt, if_true, more, cannot, Bool.false_eq_true,
      if_false]
  exact refuse.cons (Passes.of_straight rfl rfl)

/-- What `reserve` does when memory could not grow. -/
def reserveFailure : List Instr :=
  [const32 AbortCode.outOfMemory.number, get 1, const32 0, get 0, apply .i32WrapI64,
    .call abortIndex, .unreachable]

theorem reserve_report (lent : 4 ≤ room.cells) :
    Ends frames.program room 8 reserveFailure [] (reserveLocals bytes site (pagesForTable bytes))
      store (.trap .unreachable (aborted (tableAbort site bytes) store)) := by
  have arguments : Passes frames.program room 5
      [const32 AbortCode.outOfMemory.number, get 1, const32 0, get 0, apply .i32WrapI64] []
      (reserveLocals bytes site (pagesForTable bytes)) store
      [.i32 (UInt64.ofNat bytes).toUInt32, .i32 0, .i32 site.toUInt32, .i32 2]
      (reserveLocals bytes site (pagesForTable bytes)) store :=
    Passes.of_straight rfl rfl
  have report : Passes frames.program room 1 [.call abortIndex]
      [.i32 (UInt64.ofNat bytes).toUInt32, .i32 0, .i32 site.toUInt32, .i32 2]
      (reserveLocals bytes site (pagesForTable bytes)) store []
      (reserveLocals bytes site (pagesForTable bytes))
      (aborted (tableAbort site bytes) store) := by
    refine Passes.callImport _ HostState.abortFunction [] rfl rfl ?_ rfl
    simpa [Headroom.canLend, HostState.abortFunction] using lent
  have stop : Ends frames.program room 1 [.unreachable] []
      (reserveLocals bytes site (pagesForTable bytes)) (aborted (tableAbort site bytes) store)
      (.trap .unreachable (aborted (tableAbort site bytes) store)) :=
    Ends.of_exec fun _ => rfl
  exact ((arguments.append report).then_ends stop).mono (by decide)

theorem reserve_ends (site : Int32) (declared : Declared store.memory)
    (small : bytes < 0x10000000000) (fits : pagesForTable bytes ≤ store.memory.maxPages) :
    Ends frames.program room 24 Compiled.reserve.code [] (reserveLocals bytes site 0) store
      (.next [] (reserveLocals bytes site (pagesForTable bytes))
        { store with memory := reserved bytes store.memory }) := by
  have test := reserve_test frames room site declared small
  rcases Nat.lt_or_ge store.memory.pages (pagesForTable bytes) with lt | ge
  · rw [truthOf, if_pos lt] at test
    have grow := (reserve_missing frames room site declared small lt).append
      (grow_passes declared lt fits)
    have enlarge := Passes.ifThen (show (1 : UInt32) ≠ 0 by decide) []
      (grow.append (Passes.ifThen_zero reserveFailure))
    exact (test.append enlarge).ends.mono (by decide)
  · rw [truthOf_eq_zero (Nat.not_lt.mpr ge)] at test
    have same : reserved bytes store.memory = store.memory := if_neg (Nat.not_lt.mpr ge)
    rw [same]
    exact (test.append (Passes.ifThen_zero _)).ends.mono (by decide)

/-- A table beyond the limit is refused, and memory stays as it was. -/
theorem reserve_trap (site : Int32) (declared : Declared store.memory)
    (small : bytes < 0x10000000000) (lent : 4 ≤ room.cells)
    (refused : store.memory.maxPages < pagesForTable bytes) :
    Ends frames.program room 32 Compiled.reserve.code [] (reserveLocals bytes site 0) store
      (.trap .unreachable (aborted (tableAbort site bytes) store)) := by
  have lt := declared.within.trans_lt refused
  have test := reserve_test frames room site declared small
  rw [truthOf, if_pos lt] at test
  have fail := (reserve_missing frames room site declared small lt).append
    (grow_refused small lt refused)
  have report := fail.then_ends (Ends.ifThen_final (show (1 : UInt32) ≠ 0 by decide) [] []
    (reserve_report lent) trivial)
  have trapped := Ends.ifThen_final (show (1 : UInt32) ≠ 0 by decide) [] [] report trivial
  exact (test.then_ends trapped).mono (by decide)

/-! ## Calls of `reserve` -/

theorem popWords?_two (first second : Word) (stack : List Word) :
    popWords? 2 (second :: first :: stack) = some ([first, second], stack) := by
  rw [popWords?, if_pos (by simp)]
  rfl

theorem callReserve_passes (frames : Frames) (stack : List Word) (locals : Array Word)
    (site : Int32) (declared : Declared store.memory) (small : bytes < 0x10000000000)
    (entered : room.enter? frames.reserve = some inside)
    (fits : pagesForTable bytes ≤ store.memory.maxPages) :
    Passes frames.program room 25 [.call reserveIndex]
      (.i32 site.toUInt32 :: .i64 (UInt64.ofNat bytes) :: stack) locals store stack locals
      { store with memory := reserved bytes store.memory } :=
  Passes.callRoutine rfl rfl (popWords?_two _ _ stack) entered
    (reserve_ends site declared small fits) rfl

theorem callReserve_trap (frames : Frames) (stack : List Word) (locals : Array Word)
    (site : Int32) (rest : List Instr) (declared : Declared store.memory)
    (small : bytes < 0x10000000000) (entered : room.enter? frames.reserve = some inside)
    (lent : 4 ≤ inside.cells) (refused : store.memory.maxPages < pagesForTable bytes) :
    Ends frames.program room 33 (.call reserveIndex :: rest)
      (.i32 site.toUInt32 :: .i64 (UInt64.ofNat bytes) :: stack) locals store
      (.trap .unreachable (aborted (tableAbort site bytes) store)) :=
  Ends.callRoutine_trap rfl rfl (popWords?_two _ _ stack) entered
    (reserve_trap site declared small lent refused)

end TableKernels.Compiled
