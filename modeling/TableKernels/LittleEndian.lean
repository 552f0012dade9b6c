/-!
# Little-endian words

The bytes of a word, the lowest first, and the word of such bytes.
-/

namespace TableKernels

/-- A sequence of bytes. -/
abbrev Bytes : Type := List UInt8

namespace LittleEndian

/-- The lowest `width` bytes of a word. -/
def encode : Nat → UInt64 → Bytes
  | 0, _ => []
  | width + 1, word => word.toUInt8 :: encode width (word >>> 8)

/-- The word of at most eight bytes. -/
def decode : Bytes → UInt64
  | [] => 0
  | byte :: bytes => byte.toUInt64 ||| (decode bytes <<< 8)

end LittleEndian

end TableKernels
