import TableKernels.Proofs.Hosted.HandMade
import TableKernels.Proofs.Inspection.Reports

/-!
# Limits of a hosted memory

The host takes the limits that it reports from the first memory that a module lists, and the size
from the memory that the module exports. The size lies within what the exported memory declares,
whatever the host does. It lies within the limits that are reported if the exported memory is the
first, and may lie outside of them if it is another.
-/

namespace TableKernels

open Wasm Compiled

/-! ## Limits in pages and in bytes -/

namespace HostedKernel

variable {kernel : HostedKernel} {bytes : Bytes} {config : Config} {program : Module}

/-- The host reports the limits of one type, and the size of a memory of another. -/
structure ShowsSizes (first exported : MemoryType) (kernel : HostedKernel) : Prop where
  min : kernel.memorySizes.min.toNat = first.minPages.toNat * pageSize
  max : kernel.memorySizes.max.map UInt64.toNat = first.maxPages.map (·.toNat * pageSize)
  least : exported.minPages.toNat * pageSize ≤ kernel.memorySizes.current.toNat
  most : ∀ most, exported.maxPages = some most →
    kernel.memorySizes.current.toNat ≤ most.toNat * pageSize
  /-- The size is that of the memory, which seeks, reads and writes are checked against. -/
  current : kernel.memorySizes.current.toNat = kernel.memoryBytes.size
  checks : kernel.ChecksAgainst kernel.memorySizes.current

/-- The limits of a type hold of the memories of that type. -/
theorem ShowsSizes.within {type : MemoryType} (shows : kernel.ShowsSizes type type) :
    kernel.memorySizes.min ≤ kernel.memorySizes.current ∧
      ∀ max, kernel.memorySizes.max = some max → kernel.memorySizes.current ≤ max := by
  refine ⟨?_, fun max reported => ?_⟩
  · rw [UInt64.le_iff_toNat_le, shows.min]
    exact shows.least
  · have declared := shows.max
    rw [reported, Option.map_some] at declared
    obtain ⟨most, found, same⟩ := Option.map_eq_some_iff.mp declared.symm
    rw [UInt64.le_iff_toNat_le, ← same]
    exact shows.most most found

end HostedKernel

end TableKernels
