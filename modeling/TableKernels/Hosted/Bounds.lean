import TableKernels.Inspection

/-!
# Sizes of a hosted memory

A module declares the limits of its memory in pages; a host speaks of bytes. Declared limits may be
beyond what a word can count in bytes, and then count as the greatest word.
-/

namespace TableKernels

open Json

/-- A number of pages in bytes, or the greatest word if that is too many. -/
def saturatedBytes (pages : UInt64) : UInt64 :=
  if pages.toNat * pageSize < 0x10000000000000000 then UInt64.ofNat (pages.toNat * pageSize)
  else 0xffffffffffffffff

/-- The declared limits of a memory in pages. -/
structure PageBounds where
  minPages : UInt64
  maxPages : Option UInt64
deriving DecidableEq

namespace PageBounds

/-- The fewest bytes. -/
def minBytes (bounds : PageBounds) : UInt64 := saturatedBytes bounds.minPages

/-- The greatest size in bytes, if one was declared. -/
def maxBytes (bounds : PageBounds) : Option UInt64 := bounds.maxPages.map saturatedBytes

/-- Bounds in pages in JSON. -/
def codec : Codec PageBounds :=
  (Codec.record "MemoryLimits"
    (.field "min_pages" (.uint64 "u64") .required <|
      .field "max_pages" (.optional (.uint64 "u64")) (.omissible none) .done) false).map
    (fun (minPages, maxPages, _) => ⟨minPages, maxPages⟩)
    (fun bounds => (bounds.minPages, bounds.maxPages, ()))

end PageBounds

/-- Bounds in bytes as bounds in whole pages. -/
def MemoryBounds.pages (bounds : MemoryBounds) : PageBounds :=
  ⟨bounds.min / UInt64.ofNat pageSize, bounds.max.map (· / UInt64.ofNat pageSize)⟩

/-- The declared limits of a memory and its size, in bytes. -/
structure MemorySizes where
  min : UInt64
  max : Option UInt64
  current : UInt64
deriving DecidableEq

/-- The codec of the sizes of a memory. -/
def MemorySizes.codec : Codec MemorySizes :=
  (Codec.record "MemoryInfo"
    (.field "min" (.uint64 "u64") .required <|
      .field "max" (.optional (.uint64 "u64")) (.omissible none) <|
      .field "current" (.uint64 "u64") .required .done) false).map
    (fun (min, max, current, _) => ⟨min, max, current⟩)
    (fun sizes => (sizes.min, sizes.max, sizes.current, ()))

end TableKernels
