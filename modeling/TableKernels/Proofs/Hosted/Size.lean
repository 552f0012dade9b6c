import TableKernels.Hosted.Stream
import TableKernels.Proofs.Memory.Bytes
import TableKernels.Proofs.Wasm.Numbers

/-!
# The size that a stream is checked against

A range of memory is given by two words whose sum may wrap around. As long as the memory itself is
smaller than that, an access succeeds exactly if the sum of the numbers is at most the size.
-/

namespace TableKernels

open Wasm

namespace HostedKernel

variable {kernel : HostedKernel}

/-- The size of memory fits a word. -/
def IsSized (kernel : HostedKernel) : Prop := kernel.memoryBytes.size < 0x10000000000000000

/-- A memory as large as addresses of 32 bits reach has a size that fits a word. -/
theorem isSized_of_le (le : kernel.memoryBytes.size ≤ Module.pageSupply * pageSize) :
    kernel.IsSized :=
  le.trans_lt (by decide)

theorem IsSized.toNat_memorySize (sized : kernel.IsSized) :
    kernel.memorySize.toNat = kernel.memoryBytes.size :=
  toNat_ofNat64 sized

/-- The end of a range wraps around exactly if the sum of offset and length does not fit a word. -/
theorem checkStream_eq (sized : kernel.IsSized) (offset length : UInt64) :
    kernel.checkStream offset length =
      if offset.toNat + length.toNat ≤ kernel.memoryBytes.size then .ok ()
      else .error (.memoryOutOfBounds offset length kernel.memorySize) := by
  have size := sized.toNat_memorySize
  have small : kernel.memoryBytes.size < 0x10000000000000000 := sized
  have refused : (offset + length < offset ∨ kernel.memorySize < offset + length) ↔
      ¬ offset.toNat + length.toNat ≤ kernel.memoryBytes.size := by
    have offset_lt := offset.toNat_lt
    have length_lt := length.toNat_lt
    rw [UInt64.lt_iff_toNat_lt, UInt64.lt_iff_toNat_lt, UInt64.toNat_add, size]
    omega
  rw [checkStream]
  by_cases inside : offset.toNat + length.toNat ≤ kernel.memoryBytes.size
  · rw [if_pos inside, if_neg (refused.not.mpr (not_not.mpr inside))]
  · rw [if_neg inside, if_pos (refused.mpr inside)]

theorem seek_eq (sized : kernel.IsSized) (position : UInt64) :
    kernel.seek position =
      if position.toNat ≤ kernel.memoryBytes.size then (.ok (), kernel.withPosition position)
      else (.error (.memoryOutOfBounds position 0 kernel.memorySize), kernel) := by
  have beyond : kernel.memorySize < position ↔ ¬ position.toNat ≤ kernel.memoryBytes.size := by
    rw [UInt64.lt_iff_toNat_lt, sized.toNat_memorySize, Nat.not_le]
  rw [seek]
  by_cases inside : position.toNat ≤ kernel.memoryBytes.size
  · rw [if_pos inside, if_neg (beyond.not.mpr (not_not.mpr inside))]
  · rw [if_neg inside, if_pos (beyond.mpr inside)]

theorem read_eq (sized : kernel.IsSized) (offset length : UInt64) :
    kernel.read offset length =
      if offset.toNat + length.toNat ≤ kernel.memoryBytes.size then
        .ok (kernel.memoryBytes.extract offset.toNat (offset.toNat + length.toNat))
      else .error (.memoryOutOfBounds offset length kernel.memorySize) := by
  rw [read, checkStream_eq sized]
  split
  · next inside =>
    have stop : (offset + length).toNat = offset.toNat + length.toNat := by
      have small : kernel.memoryBytes.size < 0x10000000000000000 := sized
      rw [UInt64.toNat_add, Nat.mod_eq_of_lt (by omega)]
    rw [stop]
    rfl
  · rfl

theorem write_eq_ite (sized : kernel.IsSized) (offset : UInt64) {data : Bytes}
    (short : data.length < 0x10000000000000000) :
    kernel.write offset data =
      if offset.toNat + data.length ≤ kernel.memoryBytes.size then
        (.ok (), { kernel with live := { kernel.live with
          store := kernel.live.store.changeBytes kernel.surface.memory fun bytes =>
            overwrite bytes offset.toNat data } })
      else (.error (.memoryOutOfBounds offset (UInt64.ofNat data.length) kernel.memorySize),
        kernel) := by
  rw [write, checkStream_eq sized, toNat_ofNat64 short]
  split
  · next checked =>
    split at checked
    · cases checked
    · next outside =>
      cases checked
      rw [if_neg outside]
  · next checked =>
    split at checked
    · next inside => rw [if_pos inside]
    · cases checked

/-- Seeks, reads and writes are checked against a size. -/
structure ChecksAgainst (size : UInt64) (kernel : HostedKernel) : Prop where
  seek : ∀ position, (kernel.seek position).1 =
    if position.toNat ≤ size.toNat then .ok () else .error (.memoryOutOfBounds position 0 size)
  read : ∀ offset length, (kernel.read offset length).map (fun _ => ()) =
    if offset.toNat + length.toNat ≤ size.toNat then .ok ()
    else .error (.memoryOutOfBounds offset length size)
  write : ∀ offset (data : Bytes), data.length < 0x10000000000000000 →
    (kernel.write offset data).1 = if offset.toNat + data.length ≤ size.toNat then .ok ()
    else .error (.memoryOutOfBounds offset (UInt64.ofNat data.length) size)

end HostedKernel

end TableKernels
