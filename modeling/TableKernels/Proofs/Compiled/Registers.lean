import TableKernels.Proofs.Compiled.Scratch

/-!
# Registers and flags

The compiled sieve holds its numbers in 64-bit locals and its flags in bytes of scratch space.
`Moves` and `Loops` hide both, so that its code is described by what it makes of registers and of a
table of flags.
-/

namespace TableKernels.Compiled

open Wasm

/-- The numbers in the locals of the compiled sieve. -/
structure Registers where
  limit : ℕ
  x : ℕ
  y : ℕ
  n : ℕ
  r : ℕ
  step : ℕ
  i : ℕ
  residue : ℕ

/-- The locals. -/
def Registers.words (registers : Registers) : Array Word :=
  #[.i64 (UInt64.ofNat registers.limit), .i64 (UInt64.ofNat registers.x),
    .i64 (UInt64.ofNat registers.y), .i64 (UInt64.ofNat registers.n),
    .i64 (UInt64.ofNat registers.r), .i64 (UInt64.ofNat registers.step),
    .i64 (UInt64.ofNat registers.i), .i64 (UInt64.ofNat registers.residue)]

/-- The store with another first memory. -/
def onMemory (store : Store HostState) (memory : Memory) : Store HostState :=
  { store with memory }

/-- Code falls through and takes registers and a table of flags from one state to another. -/
def Moves (frames : Frames) (room : Headroom) (store : Store HostState) (cost : ℕ)
    (code : List Instr) (registers : Registers) (table : Array Bool) (registers' : Registers)
    (table' : Array Bool) : Prop :=
  ∀ memory, Tabled store.memory table memory → ∃ memory', Tabled store.memory table' memory' ∧
    Passes frames.program room cost code [] registers.words (onMemory store memory) []
      registers'.words (onMemory store memory')

variable {frames : Frames} {room : Headroom} {store : Store HostState} {cost cost' : ℕ}
  {code code' : List Instr} {registers registers' registers'' : Registers}
  {table table' table'' : Array Bool} {stack : List Word} {index : UInt32} {number : ℕ}

namespace Moves

theorem append (first : Moves frames room store cost code registers table registers' table')
    (second : Moves frames room store cost' code' registers' table' registers'' table'') :
    Moves frames room store (cost + cost') (code ++ code') registers table registers''
      table'' := by
  intro memory tabled
  obtain ⟨memory', tabled', passes⟩ := first memory tabled
  obtain ⟨memory'', tabled'', passes'⟩ := second memory' tabled'
  exact ⟨memory'', tabled'', passes.append passes'⟩

theorem mono (moves : Moves frames room store cost code registers table registers' table')
    (le : cost ≤ cost') :
    Moves frames room store cost' code registers table registers' table' := by
  intro memory tabled
  obtain ⟨memory', tabled', passes⟩ := moves memory tabled
  exact ⟨memory', tabled', passes.mono le⟩

theorem of_passes (passes : ∀ memory, Passes frames.program room cost code [] registers.words
      (onMemory store memory) [] registers'.words (onMemory store memory)) :
    Moves frames room store cost code registers table registers' table :=
  fun memory tabled => ⟨memory, tabled, passes memory⟩

theorem ifThen {condition : List Instr} {body : List Instr} {statement : Prop}
    [Decidable statement]
    (test : ∀ memory, Tabled store.memory table memory →
      Passes frames.program room cost condition [] registers.words
        (onMemory store memory) [.i32 (truthOf statement)] registers'.words
        (onMemory store memory))
    (taken : statement → Moves frames room store cost' body registers' table registers'' table')
    (skipped : ¬ statement → registers'' = registers' ∧ table' = table) :
    Moves frames room store (cost + (cost' + 2)) (condition ++ [.ifThen body]) registers table
      registers'' table' := by
  intro memory tabled
  have tested := test memory tabled
  by_cases holds : statement
  · obtain ⟨memory', tabled', passes⟩ := taken holds memory tabled
    exact ⟨memory', tabled', tested.append (Passes.ifThen (truthOf_ne_zero holds) _ passes)⟩
  · obtain ⟨rfl, rfl⟩ := skipped holds
    rw [truthOf_eq_zero holds] at tested
    exact ⟨memory, tabled, (tested.append (Passes.ifThen_zero _)).mono (by omega)⟩

end Moves

/-- A loop ends and takes registers and a table of flags from one state to another. -/
def Loops (frames : Frames) (room : Headroom) (store : Store HostState) (cost : ℕ)
    (condition body : List Instr) (registers : Registers) (table : Array Bool)
    (registers' : Registers) (table' : Array Bool) : Prop :=
  ∀ memory, Tabled store.memory table memory → ∃ memory', Tabled store.memory table' memory' ∧
    Ends frames.program room cost (turns condition body) [] registers.words
      (onMemory store memory) (.jump 0 [] registers'.words (onMemory store memory'))

namespace Loops

variable {condition body : List Instr} {cost'' : ℕ} {registers₁ registers₂ : Registers}

theorem stop (statement : Prop) [Decidable statement]
    (test : ∀ store, Passes frames.program room cost condition [] registers.words store
      [.i32 (truthOf statement)] registers'.words store) (holds : statement) :
    Loops frames room store (cost + 2) condition body registers table registers' table :=
  fun memory tabled =>
    ⟨memory, tabled, Ends.turns_stop (truthOf_ne_zero holds) (test (onMemory store memory))⟩

theorem again (statement : Prop) [Decidable statement]
    (test : ∀ store, Passes frames.program room cost condition [] registers.words store
      [.i32 (truthOf statement)] registers₁.words store) (fails : ¬ statement)
    (turn : Moves frames room store cost' body registers₁ table registers₂ table')
    (rest : Loops frames room store cost'' condition body registers₂ table' registers' table'') :
    Loops frames room store (max (cost + cost' + 2) cost'' + 1) condition body registers table
      registers' table'' := by
  intro memory tabled
  have tested := test (onMemory store memory)
  rw [truthOf_eq_zero fails] at tested
  obtain ⟨memory', tabled', passes⟩ := turn memory tabled
  obtain ⟨memory'', tabled'', ends⟩ := rest memory' tabled'
  exact ⟨memory'', tabled'', Ends.turns_again tested passes ends⟩

theorem mono (loops : Loops frames room store cost condition body registers table registers'
      table') (le : cost ≤ cost') :
    Loops frames room store cost' condition body registers table registers' table' := by
  intro memory tabled
  obtain ⟨memory', tabled', ends⟩ := loops memory tabled
  exact ⟨memory', tabled', ends.mono le⟩

theorem moves (loops : Loops frames room store cost condition body registers table registers'
      table') :
    Moves frames room store (cost + 1) [loopUntil condition body] registers table registers'
      table' := by
  intro memory tabled
  obtain ⟨memory', tabled', ends⟩ := loops memory tabled
  exact ⟨memory', tabled', Passes.loopUntil ends⟩

end Loops

/-! ## Flags in memory -/

theorem flagAddress_passes (frames : Frames) (room : Headroom) (store : Store HostState)
    (stack : List Word) (index : UInt32) (locals : Array Word)
    (held : locals[index.toNat]? = some (.i64 (UInt64.ofNat number))) :
    Passes frames.program room (1 + (1 + 2)) (flagAddress index) stack locals store
      (.i32 (UInt32.ofNat (heapStart + number)) :: stack) locals store := by
  have address : (UInt64.ofNat number).toUInt32 + (65536 : Int32).toUInt32 =
      UInt32.ofNat (heapStart + number) := by
    rw [Nat.add_comm, UInt32.ofNat_add, UInt64.toUInt32_ofNat']
    rfl
  rw [← address]
  exact (get_passes held).cons ((Passes.unary rfl rfl).cons (Passes.of_straight rfl rfl))

theorem increment_passes (frames : Frames) (room : Headroom) (store : Store HostState)
    (index : UInt32) (number : ℕ) (locals : Array Word)
    (held : locals[index.toNat]? = some (.i64 (UInt64.ofNat number))) :
    Passes frames.program room (1 + 3) (increment index) [] locals store []
      (locals.setIfInBounds index.toNat (.i64 (UInt64.ofNat (number + 1)))) store := by
  rw [UInt64.ofNat_add]
  exact (get_passes held).cons (Passes.of_straight rfl rfl)

theorem squareExceedsLimit_passes
    (held : registers.words[index.toNat]? = some (.i64 (UInt64.ofNat number)))
    (limit_lt : registers.limit < 0x80000000) (number_le : number ≤ 0x80000000) :
    Passes frames.program room (1 + (1 + 3)) (squareExceedsLimit index) [] registers.words store
      [.i32 (truthOf (registers.limit < number * number))] registers.words store := by
  have square := Nat.mul_self_le_mul_self number_le
  rw [← truth_lt_signed (by omega) (by omega), UInt64.ofNat_mul]
  exact (get_passes held).cons ((get_passes held).cons (Passes.of_straight rfl rfl))

theorem loadFlag_passes (frames : Frames) (room : Headroom) (stack : List Word)
    (locals : Array Word) {memory : Memory} (tabled : Tabled store.memory table memory)
    (inside : number < table.size) (small : table.size ≤ 0x80000000) :
    Passes frames.program room 1 [.op (.i32Load8U (.first 0 0))]
      (.i32 (UInt32.ofNat (heapStart + number)) :: stack) locals (onMemory store memory)
      (.i32 (flagByte (Table.flag table number)).toUInt32 :: stack) locals
      (onMemory store memory) := by
  have address : (UInt32.ofNat (heapStart + number)).toNat = heapStart + number :=
    toNat_ofNat32 (by simp only [heapStart]; omega)
  have read : Load.i32From8U.read memory (heapStart + number) =
      some (.i32 (flagByte (Table.flag table number)).toUInt32) := by
    rw [Load.read, if_pos (show Load.i32From8U.size = 1 from rfl), tabled.load inside,
      Option.map_some, Load.word, UInt8.toUInt32_toUInt64]
  have place : (UInt32.ofNat (heapStart + number)).toNat + (0 : UInt64).toNat =
      heapStart + number := address
  exact Passes.load (place.symm ▸ read)

theorem storeFlag_passes (frames : Frames) (room : Headroom) (store : Store HostState)
    (stack : List Word) (locals : Array Word) {memory : Memory} (value : UInt32) (flag : Bool)
    (tabled : Tabled store.memory table memory) (inside : number < table.size)
    (small : table.size ≤ 0x80000000) (byte : value.toUInt8 = flagByte flag) :
    Passes frames.program room 1 [.op (.i32Store8 (.first 0 0))]
      (.i32 value :: .i32 (UInt32.ofNat (heapStart + number)) :: stack) locals
      (onMemory store memory) stack locals
      (onMemory store (memory.withBytes fun bytes =>
        Memory.setByte bytes (heapStart + number) (flagByte flag))) := by
  have address : (UInt32.ofNat (heapStart + number)).toNat = heapStart + number :=
    toNat_ofNat32 (by simp only [heapStart]; omega)
  have within := tabled.framed.table_inside
  have write : Save.i32To8.write value.toUInt64 = fun bytes address =>
      Memory.setByte bytes address (flagByte flag) := by
    rw [← byte, ← UInt32.toUInt8_toUInt64]
    rfl
  have place : (UInt32.ofNat (heapStart + number)).toNat + (0 : UInt64).toNat =
      heapStart + number := address
  have inside : (UInt32.ofNat (heapStart + number)).toNat + (0 : UInt64).toNat + 1 ≤
      memory.size := by
    omega
  have saves : Passes frames.program room 1 [.op (.i32Store8 (.first 0 0))]
      (.i32 value :: .i32 (UInt32.ofNat (heapStart + number)) :: stack) locals
      (onMemory store memory) stack locals _ := Passes.save rfl inside
  rwa [place, write] at saves

end TableKernels.Compiled
