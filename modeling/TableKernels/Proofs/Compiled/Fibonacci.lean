import TableKernels.Proofs.Compiled.Registers

/-!
# The compiled Fibonacci numbers

The loop fills the words of scratch space from the bottom up, each from the two below it. Both seeds
are written before the loop starts, so nothing is read that the call has not written.
-/

namespace TableKernels.Compiled

open Wasm

/-- Memory whose scratch space begins with so many Fibonacci numbers. -/
structure Worded (bytes : ℕ) (before : Memory) (count : ℕ) (memory : Memory) : Prop where
  framed : Framed bytes before memory
  words : ∀ index < count,
    Memory.wordAt memory.bytes (heapStart + index * 8) = (Table.fibonacciWord index).toUInt64

/-- Memory after the Fibonacci number with an index was written. -/
def written (memory : Memory) (index : ℕ) : Memory :=
  memory.withBytes fun bytes => overwrite bytes (heapStart + index * 8)
    (LittleEndian.encode 8 (Table.fibonacciWord index).toUInt64)

variable {bytes count index : ℕ} {before memory : Memory}

theorem Worded.write (worded : Worded bytes before count memory) (fits : (count + 1) * 8 ≤ bytes) :
    Worded bytes before (count + 1) (written memory count) := by
  have within : heapStart + bytes ≤ memory.bytes.size := worded.framed.table_inside
  have length := LittleEndian.length_encode 8 (Table.fibonacciWord count).toUInt64
  have elsewhere : ∀ other, other < heapStart + count * 8 ∨ heapStart + count * 8 + 8 ≤ other →
      byteIn (written memory count).bytes other = byteIn memory.bytes other := by
    intro other beyond
    refine (byteIn_overwrite _ _ _ (by omega) other).trans (if_neg ?_)
    omega
  refine ⟨worded.framed.change _ (size_overwrite _ _ _) fun other beyond =>
    elsewhere other (by omega), fun index lt => ?_⟩
  rcases Nat.lt_succ_iff_lt_or_eq.mp lt with below | rfl
  · rw [← worded.words index below]
    exact Memory.wordAt_congr fun other _ _ => elsewhere other (by omega)
  · exact Memory.wordAt_overwrite (by omega)

variable {frames : Frames} {room inside : Headroom} {store : Store HostState} {stack : List Word}
  {locals : Array Word} {place : MemoryPlace} {base : UInt32} {n : ℕ}

theorem loadWord_passes (frames : Frames) (room : Headroom) (stack : List Word)
    (locals : Array Word) {n : UInt32} (worded : Worded bytes store.memory count memory)
    (lt : index < count) (fits : count * 8 ≤ bytes) (address : n.toNat = heapStart + index * 8) :
    Passes frames.program room 1 [.op (.i64Load (.first 3 0))] (.i32 n :: stack) locals
      (onMemory store memory) (.i64 (Table.fibonacciWord index).toUInt64 :: stack) locals
      (onMemory store memory) := by
  have within := worded.framed.table_inside
  have read : Load.i64.read memory (heapStart + index * 8) =
      some (.i64 (Table.fibonacciWord index).toUInt64) := by
    rw [Load.read_i64 (by omega), worded.words index lt]
  have place : n.toNat + (0 : UInt64).toNat = heapStart + index * 8 := address
  exact Passes.load (place.symm ▸ read)

theorem saveWord_passes (frames : Frames) (room : Headroom) (stack : List Word)
    (locals : Array Word) (base : UInt32) (offset : UInt64)
    (worded : Worded bytes store.memory count memory) (fits : (count + 1) * 8 ≤ bytes)
    (address : base.toNat + offset.toNat = heapStart + count * 8) :
    Passes frames.program room 1 [.op (.i64Store (.first 3 offset))]
      (.i64 (Table.fibonacciWord count).toUInt64 :: .i32 base :: stack) locals
      (onMemory store memory) stack locals (onMemory store (written memory count)) := by
  have within := worded.framed.table_inside
  have inside : base.toNat + offset.toNat + 8 ≤ memory.size := by
    omega
  have saves : Passes frames.program room 1 [.op (.i64Store (.first 3 offset))]
      (.i64 (Table.fibonacciWord count).toUInt64 :: .i32 base :: stack) locals
      (onMemory store memory) stack locals _ := Passes.save rfl inside
  rwa [address] at saves

/-! ## Filling -/

/-- The code of one turn, which fills an entry and goes on to the next. -/
def fillCode : List Instr :=
  wordAddress 1 ++
    [set 2, get 2,
      get 2, const32 8, apply .i32Sub, .op (.i64Load (.first 3 0)),
      get 2, const32 16, apply .i32Sub, .op (.i64Load (.first 3 0)),
      apply .i64Add, .op (.i64Store (.first 3 0)),
      get 1, const64 1, apply .i64Add, set 1]

/-- The locals of the compiled `fibonacci`: its argument, the count and an address. -/
def fillLocals (n count : ℕ) (address : UInt32) : Array Word :=
  #[.i64 (UInt64.ofNat n), .i64 (UInt64.ofNat count), .i32 address]

theorem wordAddress_passes (index : ℕ) (frames : Frames) (room : Headroom)
    (store : Store HostState) (locals : Array Word) (local' : UInt32)
    (held : locals[local'.toNat]? = some (.i64 (UInt64.ofNat index))) :
    Passes frames.program room (1 + (1 + 4)) (wordAddress local') [] locals store
      [.i32 (UInt32.ofNat (heapStart + index * 8))] locals store := by
  have address : (UInt64.ofNat index).toUInt32 * (8 : Int32).toUInt32 +
      (65536 : Int32).toUInt32 = UInt32.ofNat (heapStart + index * 8) := by
    rw [Nat.add_comm, UInt32.ofNat_add, UInt32.ofNat_mul, UInt64.toUInt32_ofNat']
    rfl
  rw [← address]
  exact (get_passes held).cons ((Passes.unary rfl rfl).cons (Passes.of_straight rfl rfl))

theorem sub_address (back : ℕ) (address : ℕ) :
    UInt32.ofNat (address + back) - UInt32.ofNat back = UInt32.ofNat address := by
  rw [UInt32.ofNat_add, UInt32.add_sub_cancel]

/-- One turn writes one more Fibonacci number. -/
theorem fill_passes (frames : Frames) (room : Headroom) (address : UInt32)
    (worded : Worded bytes store.memory (index + 2) memory) (fits : (index + 3) * 8 ≤ bytes)
    (addressed : heapStart + bytes ≤ 0x100000000) :
    Passes frames.program room 30 fillCode [] (fillLocals n (index + 2) address)
      (onMemory store memory) []
      (fillLocals n (index + 3) (UInt32.ofNat (heapStart + (index + 2) * 8)))
      (onMemory store (written memory (index + 2))) := by
  have place := wordAddress_passes _ frames room (onMemory store memory)
    (fillLocals n (index + 2) address) 1 rfl
  obtain ⟨top, top_eq⟩ : ∃ top, top = UInt32.ofNat (heapStart + (index + 2) * 8) := ⟨_, rfl⟩
  have top_nat : top.toNat = heapStart + (index + 2) * 8 := by
    rw [top_eq, toNat_ofNat32 (by omega)]
  rw [← top_eq] at place ⊢
  have previous : (top - (8 : Int32).toUInt32).toNat = heapStart + (index + 1) * 8 := by
    rw [top_eq, show heapStart + (index + 2) * 8 = heapStart + (index + 1) * 8 + 8 by omega]
    exact (congrArg UInt32.toNat (sub_address 8 _)).trans (toNat_ofNat32 (by omega))
  have second : (top - (16 : Int32).toUInt32).toNat = heapStart + index * 8 := by
    rw [top_eq, show heapStart + (index + 2) * 8 = heapStart + index * 8 + 16 by omega]
    exact (congrArg UInt32.toNat (sub_address 16 _)).trans (toNat_ofNat32 (by omega))
  -- The address stays in a local; the two entries below it are reached by going back from it.
  have hold : Passes frames.program room 5 [set 2, get 2, get 2, const32 8, apply .i32Sub]
      [.i32 top] (fillLocals n (index + 2) address) (onMemory store memory)
      [.i32 (top - (8 : Int32).toUInt32), .i32 top] (fillLocals n (index + 2) top)
      (onMemory store memory) :=
    Passes.of_straight rfl rfl
  have first := loadWord_passes frames room [.i32 top] (fillLocals n (index + 2) top) worded
    (by omega : index + 1 < index + 2) (by omega) previous
  have back : Passes frames.program room 3 [get 2, const32 16, apply .i32Sub]
      [.i64 (Table.fibonacciWord (index + 1)).toUInt64, .i32 top]
      (fillLocals n (index + 2) top) (onMemory store memory)
      [.i32 (top - (16 : Int32).toUInt32), .i64 (Table.fibonacciWord (index + 1)).toUInt64,
        .i32 top] (fillLocals n (index + 2) top) (onMemory store memory) :=
    Passes.of_straight rfl rfl
  have below := loadWord_passes frames room
    [.i64 (Table.fibonacciWord (index + 1)).toUInt64, .i32 top] (fillLocals n (index + 2) top)
    worded (by omega : index < index + 2) (by omega) second
  have sum : Passes frames.program room 1 [apply .i64Add]
      [.i64 (Table.fibonacciWord index).toUInt64,
        .i64 (Table.fibonacciWord (index + 1)).toUInt64, .i32 top]
      (fillLocals n (index + 2) top) (onMemory store memory)
      [.i64 (Table.fibonacciWord (index + 2)).toUInt64, .i32 top]
      (fillLocals n (index + 2) top) (onMemory store memory) := by
    rw [← Table.fibonacciWord_add, Int64.toUInt64_add]
    exact Passes.of_straight rfl rfl
  have save := saveWord_passes frames room [] (fillLocals n (index + 2) top) top 0 worded
    (by omega) top_nat
  have next := increment_passes frames room (onMemory store (written memory (index + 2))) 1
    (index + 2) (fillLocals n (index + 2) top) rfl
  exact (place.append (hold.append (first.cons (back.append (below.cons (sum.cons
    (save.cons next))))))).mono (show _ ≤ 30 by decide)

theorem beyond_passes (frames : Frames) (room : Headroom) (address : UInt32)
    (n_lt : n < 0x80000000) (count_lt : count < 0x80000000) (store : Store HostState) :
    Passes frames.program room 3 [get 1, get 0, apply .i64GtS] [] (fillLocals n count address)
      store [.i32 (truthOf (n < count))] (fillLocals n count address) store := by
  rw [← truth_lt_signed (by omega) (by omega)]
  exact Passes.of_straight rfl rfl

/-- The loop fills the table up to the argument. -/
theorem fill_ends (frames : Frames) (room : Headroom) (n_lt : n + 2 < 0x80000000)
    (addressed : heapStart + (n + 2) * 8 ≤ 0x100000000) (count : ℕ) (two_le : 2 ≤ count)
    (le : count ≤ n + 2) (address : UInt32) (memory : Memory)
    (worded : Worded ((n + 2) * 8) store.memory count memory) :
    ∃ memory' count' address', n < count' ∧ Worded ((n + 2) * 8) store.memory count' memory' ∧
      count' ≤ n + 2 ∧
      Ends frames.program room (40 + (n + 2 - count)) (turns [get 1, get 0, apply .i64GtS] fillCode)
        [] (fillLocals n count address) (onMemory store memory)
        (.jump 0 [] (fillLocals n count' address') (onMemory store memory')) := by
  have test := beyond_passes frames room address (by omega : n < 0x80000000)
    (by omega : count < 0x80000000) (onMemory store memory)
  rcases Nat.lt_or_ge n count with beyond | within
  · exact ⟨memory, count, address, beyond, worded, le,
      (Ends.turns_stop (truthOf_ne_zero beyond) test).mono (by omega)⟩
  · obtain ⟨index, rfl⟩ := Nat.exists_eq_add_of_le' two_le
    rw [truthOf_eq_zero (by omega)] at test
    have turn := fill_passes (n := n) frames room address worded (by omega) addressed
    obtain ⟨memory', count', address', gt, worded', le', rest⟩ := fill_ends _ _ n_lt addressed
      (index + 3) (by omega) (by omega) _ _ (worded.write (by omega))
    exact ⟨memory', count', address', gt, worded', le',
      (Ends.turns_again test turn rest).mono (by omega)⟩
termination_by n + 2 - count

/-! ## The entry point -/

theorem fibonacci_refused {value : UInt64} {check : ArgumentCheck}
    (held : locals[0]? = some (.i64 value)) (lent : 4 ≤ room.cells)
    (refused : refusal? fibonacciBound value.toInt64 = some check) :
    Ends frames.program room 15 Compiled.fibonacci.code [] locals store
      (.trap .unreachable (aborted (argumentAbort .fibonacci check value) store)) := by
  simp only [Compiled.fibonacci, List.append_assoc]
  exact argumentGuard_trap held lent refused

theorem tableBytes_passes (small : n ≤ 2147483645) :
    Passes frames.program room 14
      (argumentGuard 0 .fibonacci fibonacciBound ++
        [get 0, const64 2, apply .i64Add, const64 8, apply .i64Mul,
          const32 EntryPoint.fibonacci.site])
      [] (fillLocals n 0 0) store
      [.i32 EntryPoint.fibonacci.site.toUInt32, .i64 (UInt64.ofNat ((n + 2) * 8))]
      (fillLocals n 0 0) store := by
  have value : (UInt64.ofNat n).toInt64.toInt = n := toInt_ofNat64 (by omega)
  have guard : Passes frames.program room 8 (argumentGuard 0 .fibonacci fibonacciBound) []
      (fillLocals n 0 0) store [] (fillLocals n 0 0) store := by
    refine argumentGuard_passes (UInt64.ofNat n) rfl (refusal?_eq_none_iff.mpr ⟨?_, ?_⟩)
    · exact value ▸ Int.natCast_nonneg n
    · change (UInt64.ofNat n).toInt64.toInt ≤ 2147483645
      omega
  refine guard.append (Passes.of_straight ?_ (show _ = 6 from rfl))
  rw [UInt64.ofNat_mul, UInt64.ofNat_add]
  rfl

theorem fibonacci_out_of_memory (declared : Declared store.memory) (small : n ≤ 2147483645)
    (entered : room.enter? frames.reserve = some inside) (lent : 4 ≤ inside.cells)
    (refused : store.memory.maxPages < pagesForTable ((n + 2) * 8)) :
    Ends frames.program room 50 Compiled.fibonacci.code [] (fillLocals n 0 0) store
      (.trap .unreachable
        (aborted (tableAbort EntryPoint.fibonacci.site ((n + 2) * 8)) store)) := by
  have reserve := callReserve_trap frames [] (fillLocals n 0 0) EntryPoint.fibonacci.site
    ([const32 tableBase, const64 0, .op (.i64Store (.first 3 0)),
        const32 tableBase, const64 1, .op (.i64Store (.first 3 8)),
        const64 2, set 1,
        .block [.loop fillLoop]] ++
      wordAddress 0 ++ [.op (.i64Load (.first 3 0))]) declared (by omega) entered lent refused
  exact ((tableBytes_passes small).then_ends reserve).mono (by decide)

/-- Both seeds are written whatever scratch space held. -/
theorem seeds_passes (frames : Frames) (room : Headroom)
    (framed : Framed ((n + 2) * 8) store.memory memory) :
    ∃ memory', Worded ((n + 2) * 8) store.memory 2 memory' ∧
      Passes frames.program room 8
        [const32 tableBase, const64 0, .op (.i64Store (.first 3 0)),
          const32 tableBase, const64 1, .op (.i64Store (.first 3 8)), const64 2, set 1]
        [] (fillLocals n 0 0) (onMemory store memory) [] (fillLocals n 2 0)
        (onMemory store memory') := by
  have none : Worded ((n + 2) * 8) store.memory 0 memory := ⟨framed, by omega⟩
  have one := none.write (by omega)
  refine ⟨written (written memory 0) 1, one.write (by omega), ?_⟩
  have zeroth := saveWord_passes frames room [] (fillLocals n 0 0) tableBase.toUInt32 0 none
    (by omega) rfl
  have first := saveWord_passes frames room [] (fillLocals n 0 0) tableBase.toUInt32 8 one
    (by omega) rfl
  have before : Passes frames.program room 2 [const32 tableBase, const64 0] []
      (fillLocals n 0 0) (onMemory store memory)
      [.i64 (Table.fibonacciWord 0).toUInt64, .i32 tableBase.toUInt32] (fillLocals n 0 0)
      (onMemory store memory) :=
    Passes.of_straight rfl rfl
  have between : Passes frames.program room 2 [const32 tableBase, const64 1] []
      (fillLocals n 0 0) (onMemory store (written memory 0))
      [.i64 (Table.fibonacciWord 1).toUInt64, .i32 tableBase.toUInt32] (fillLocals n 0 0)
      (onMemory store (written memory 0)) :=
    Passes.of_straight rfl rfl
  have after : Passes frames.program room 2 [const64 2, set 1] [] (fillLocals n 0 0)
      (onMemory store (written (written memory 0) 1)) [] (fillLocals n 2 0)
      (onMemory store (written (written memory 0) 1)) :=
    Passes.of_straight rfl rfl
  exact before.append (zeroth.cons (between.append (first.cons after)))

/-- A table that fits lets the call answer. -/
theorem fibonacci_answers (declared : Declared store.memory) (small : n ≤ 2147483645)
    (entered : room.enter? frames.reserve = some inside)
    (fits : pagesForTable ((n + 2) * 8) ≤ store.memory.maxPages) :
    ∃ memory locals', Framed ((n + 2) * 8) store.memory memory ∧
      Ends frames.program room (200 + n) Compiled.fibonacci.code [] (fillLocals n 0 0) store
        (.next [.i64 (Table.fibonacciWord n).toUInt64] locals' (onMemory store memory)) := by
  -- A table within the declared limit lies below the end of a 32-bit memory.
  have addressed : heapStart + (n + 2) * 8 ≤ 0x100000000 := by
    have ceiling := declared.ceiling
    simp only [pagesForTable, heapStart, pageSize, pageCeiling] at *
    omega
  have n_lt : n + 2 < 0x80000000 := by
    simp only [heapStart] at addressed
    omega
  have reserve := callReserve_passes frames [] (fillLocals n 0 0) EntryPoint.fibonacci.site
    declared (by omega) entered fits
  obtain ⟨seeded, worded, seeds⟩ := seeds_passes (n := n) frames room (Framed.reserved declared)
  obtain ⟨filled, count, address, lt, worded', le, fill⟩ := fill_ends frames room n_lt addressed
    2 (le_refl 2) (by omega) 0 seeded worded
  have entry := wordAddress_passes n frames room (onMemory store filled)
    (fillLocals n count address) 0 rfl
  have load := loadWord_passes (n := UInt32.ofNat (heapStart + n * 8)) frames room []
    (fillLocals n count address) worded' lt (by omega) (toNat_ofNat32 (by omega))
  refine ⟨filled, fillLocals n count address, worded'.framed, ?_⟩
  exact ((tableBytes_passes small).append (reserve.cons (seeds.append
    ((Passes.loopUntil fill).cons (entry.append load))))).ends.mono (by omega)

end TableKernels.Compiled
