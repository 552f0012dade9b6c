import TableKernels.Proofs.Compiled.Reserve
import TableKernels.Proofs.Table.Answer
import TableKernels.Proofs.Table.Fibonacci
import TableKernels.Proofs.Wasm.Growth

/-!
# Tables in scratch space

`Framed` says what a call that needs a table may do to memory: it may add pages for the table and
write within it. `Tabled` says in addition which flags the table holds.
-/

namespace TableKernels.Compiled

open Wasm

/-- Memory after a call with a table of so many bytes: what is not in the table has not changed. -/
structure Framed (bytes : ℕ) (before after : Memory) : Prop where
  wide : after.wide = before.wide
  maxPages : after.maxPages = before.maxPages
  size : after.size = max before.size (pagesForTable bytes * pageSize)
  outside : ∀ address, address < heapStart ∨ heapStart + bytes ≤ address →
    byteIn after.bytes address = byteIn before.bytes address

variable {bytes : ℕ} {before memory : Memory}

theorem Framed.reserved (declared : Declared memory) :
    Framed bytes memory (reserved bytes memory) := by
  have whole := declared.whole
  unfold Compiled.reserved
  split
  · next lt =>
    refine ⟨by cases memory; rfl, by cases memory; rfl, ?_, fun address _ => ?_⟩
    · have le := Nat.mul_le_mul_right pageSize lt.le
      rw [size_grow, whole, Nat.max_eq_right le, ← Nat.add_mul, Nat.add_sub_cancel' lt.le]
    · rw [bytes_grow, byteIn_extendBytes]
  · next ge =>
    refine ⟨rfl, rfl, ?_, fun _ _ => rfl⟩
    have le := Nat.mul_le_mul_right pageSize (Nat.not_lt.mp ge)
    rw [Nat.max_eq_left (by omega)]

namespace Framed

theorem table_inside (framed : Framed bytes before memory) :
    heapStart + bytes ≤ memory.size := by
  rw [framed.size]
  exact (le_pagesForTable bytes).trans (Nat.le_max_right _ _)

theorem pages (framed : Framed bytes before memory) (declared : Declared before) :
    memory.pages = max before.pages (pagesForTable bytes) := by
  rw [Memory.pages, framed.size, declared.whole, Nat.mul_max_mul_right,
    Nat.mul_div_cancel _ (by decide)]

theorem declared (framed : Framed bytes before memory) (declared : Declared before)
    (fits : pagesForTable bytes ≤ before.maxPages) : Declared memory where
  narrow := framed.wide.trans declared.narrow
  whole := by
    rw [framed.pages declared, framed.size, declared.whole, Nat.mul_max_mul_right]
  pages_pos := by
    rw [framed.pages declared]
    exact declared.pages_pos.trans (Nat.le_max_left _ _)
  within := by
    rw [framed.pages declared, framed.maxPages]
    exact max_le declared.within fits
  ceiling := framed.maxPages.trans_le declared.ceiling

theorem change (framed : Framed bytes before memory) (change : ByteArray → ByteArray)
    (size : (change memory.bytes).size = memory.bytes.size)
    (outside : ∀ address, address < heapStart ∨ heapStart + bytes ≤ address →
      byteIn (change memory.bytes) address = byteIn memory.bytes address) :
    Framed bytes before (memory.withBytes change) where
  wide := framed.wide
  maxPages := framed.maxPages
  size := by
    rw [size_withBytes, size]
    exact framed.size
  outside := fun address beyond => (outside address beyond).trans (framed.outside address beyond)

end Framed

/-! ## Flags -/

/-- A flag as a byte of scratch space. -/
def flagByte (flag : Bool) : UInt8 := if flag then 1 else 0

/-- Memory whose scratch space holds a table of flags. -/
structure Tabled (before : Memory) (table : Array Bool) (memory : Memory) : Prop where
  framed : Framed table.size before memory
  flags : ∀ index < table.size,
    byteIn memory.bytes (heapStart + index) = flagByte (Table.flag table index)

namespace Tabled

variable {table : Array Bool} {index : ℕ}

theorem load (tabled : Tabled before table memory) (inside : index < table.size) :
    memory.load8? (heapStart + index) = some (flagByte (Table.flag table index)) := by
  have within := tabled.framed.table_inside
  rw [Memory.load8?, if_pos (by omega), Memory.byteAt_eq, tabled.flags index inside]

theorem store (tabled : Tabled before table memory) (inside : index < table.size)
    (value : Bool) : Tabled before (table.setIfInBounds index value)
      (memory.withBytes fun bytes =>
        Memory.setByte bytes (heapStart + index) (flagByte value)) := by
  have within := tabled.framed.table_inside
  have place : heapStart + index < memory.bytes.size := by
    change _ < memory.size
    omega
  refine ⟨?_, ?_⟩
  · rw [Array.size_setIfInBounds]
    refine tabled.framed.change _ (Memory.size_setByte _ _ _) fun address beyond => ?_
    rw [Memory.byteIn_setByte place, if_neg (by omega)]
  · intro other other_lt
    rw [Array.size_setIfInBounds] at other_lt
    rw [Table.flag_set value inside]
    change byteIn (Memory.setByte memory.bytes (heapStart + index) (flagByte value)) _ = _
    rw [Memory.byteIn_setByte place, tabled.flags other other_lt]
    simp only [Nat.add_left_cancel_iff]
    split
    · rfl
    · rfl

theorem fill {size : ℕ} (framed : Framed size before memory) :
    Tabled before (Array.replicate size false)
      (memory.withBytes fun bytes => Memory.fillBytes bytes heapStart 0 size) := by
  have within : heapStart + size ≤ memory.bytes.size := framed.table_inside
  refine ⟨?_, ?_⟩
  · rw [Array.size_replicate]
    refine framed.change _ (Memory.size_fillBytes _ _ _) fun address beyond => ?_
    rw [Memory.byteIn_fillBytes _ _ _ within, if_neg (by omega)]
  · intro index lt
    rw [Array.size_replicate] at lt
    change byteIn (Memory.fillBytes memory.bytes heapStart 0 size) _ = _
    rw [Memory.byteIn_fillBytes _ _ _ within, if_pos (by omega), Table.flag_replicate]
    rfl

end Tabled

end TableKernels.Compiled
