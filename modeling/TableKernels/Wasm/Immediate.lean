import TableKernels.Wasm.Types

/-!
# Immediates

What follows the code of an instruction is fixed by its code alone. `immediatesOf?` lists the parts
for every instruction there is, run here or not, and `skipExpression` uses them to pass over a list
of instructions up to the first end marker without asking what they do.
-/

namespace TableKernels.Wasm

/-- The written form of an index. -/
def encodeIndex (index : UInt32) : Bytes := Leb128.ofNat index.toNat

/--
The constant parts of an access to memory: the promised alignment, as a power, an offset, and the
index of the memory.
-/
structure MemoryPlace where
  alignment : UInt32
  offset : UInt64
  memory : UInt32
deriving DecidableEq

namespace MemoryPlace

/-- A place in the first memory. -/
def first (alignment : UInt32) (offset : UInt64) : MemoryPlace := ⟨alignment, offset, 0⟩

/-- The mark beside an alignment that says that the index of a memory follows. -/
def indexMark : UInt32 := 64

/-- The written form of a place; the index of the first memory is left out. -/
def encode (place : MemoryPlace) : Bytes :=
  (if place.memory = 0 then encodeIndex place.alignment
    else encodeIndex (place.alignment + indexMark) ++ encodeIndex place.memory) ++
    Leb128.ofNat place.offset.toNat

/-- Reads a place; a mark among the bits of its alignment says that a memory is named. -/
def decode : Decoder MemoryPlace := do
  let flags ← Leb128.u32
  Decoder.require (flags < 2 * indexMark)
  let memory ← Decoder.part (indexMark ≤ flags) Leb128.u32
  let offset ← Leb128.u64
  return ⟨flags % indexMark, offset, memory.getD 0⟩

end MemoryPlace

/-- A part that follows the code of an instruction. -/
inductive Immediate
  | index
  /-- Indices after their count. -/
  | indices
  | place
  | blockType
  | heapType
  | valType
  | integer (width : Nat)
  | bytes (count : Nat)
  /-- A byte below a limit. -/
  | byteBelow (limit : UInt8)
  /-- The number one. -/
  | one
  /-- How strictly an atomic access is ordered. -/
  | ordering
  /-- What a block catches. -/
  | catches
  /-- What a resumed computation may ask for. -/
  | handlers
deriving DecidableEq

namespace Immediate

/-- The most labels that a jump chooses among. -/
def labelLimit : Nat := 7654321

/-- The most clauses that a block or a resumption may have. -/
def clauseLimit : Nat := 10000

/-- Passes over an index. -/
def skipIndex : Decoder Unit := do
  let _ ← Leb128.u32

/-- Passes over a clause: a byte below `wide + narrow`, then two indices or, from `wide` on, one. -/
def skipClause (wide narrow : UInt8) : Decoder Unit := do
  let kind ← Decoder.byte
  Decoder.require (kind < wide + narrow)
  skipIndex
  if kind < wide then skipIndex

/-- Passes over the type of a block: none, a type, or the index of a function type. -/
def skipBlockType : Decoder Unit
  | 0x40 :: rest => some ((), rest)
  | content =>
    match decodeValType content with
    | some (_, rest) => some ((), rest)
    | none =>
      match Leb128.integer 33 content with
      | some (type, rest) => if 0 ≤ type then some ((), rest) else none
      | none => none

/-- Passes over one part of an instruction. -/
def skip : Immediate → Decoder Unit
  | index => skipIndex
  | indices => do
    let _ ← Decoder.vector Leb128.u32 labelLimit
  | place => do
    let _ ← MemoryPlace.decode
  | blockType => skipBlockType
  | heapType => do
    let _ ← RefType.decodeHeap
  | valType => do
    let _ ← decodeValType
  | integer width => do
    let _ ← Leb128.integer width
  | bytes count => do
    let _ ← Decoder.take count
  | byteBelow limit => do
    Decoder.require ((← Decoder.byte) < limit)
  | one => do
    Decoder.require ((← Leb128.u32) == 1)
  | ordering => do
    Decoder.require ((← Leb128.u32) < 2)
  | catches => do
    let _ ← Decoder.vector (skipClause 2 2) clauseLimit
  | handlers => do
    let _ ← Decoder.vector (skipClause 1 1) clauseLimit

/-- Passes over the parts of an instruction, in order. -/
def skipAll : List Immediate → Decoder Unit
  | [] => return ()
  | part :: parts => do
    part.skip
    skipAll parts

end Immediate

open Immediate

/-- The parts of an instruction on structures, arrays and casts, by its second code. -/
def aggregateImmediates? (code : UInt32) : Option (List Immediate) :=
  if code ≤ 0x01 then some [index]
  else if code ≤ 0x05 then some [index, index]
  else if code ≤ 0x07 then some [index]
  else if code ≤ 0x0a then some [index, index]
  else if code ≤ 0x0e then some [index]
  else if code = 0x0f then some []
  else if code = 0x10 then some [index]
  else if code ≤ 0x13 then some [index, index]
  else if code ≤ 0x17 then some [heapType]
  else if code ≤ 0x19 then some [byteBelow 4, index, heapType, heapType]
  else if code ≤ 0x1e then some []
  else none

/-- The parts of a saturating conversion, bulk or wide instruction, by its second code. -/
def bulkImmediates? (code : UInt32) : Option (List Immediate) :=
  if code ≤ 0x07 then some []
  else if code = 0x08 ∨ code = 0x0a ∨ code = 0x0c ∨ code = 0x0e then some [index, index]
  else if code ≤ 0x12 then some [index]
  else if code ≤ 0x16 then some []
  else none

/-- The second codes of vector instructions that stand for nothing. -/
def vacantVectorCodes : List UInt32 :=
  [0x9a, 0xa2, 0xa5, 0xa6, 0xaf, 0xb0, 0xb2, 0xb3, 0xb4, 0xbb, 0xc2, 0xc5, 0xc6, 0xcf, 0xd0,
    0xd2, 0xd3, 0xd4, 0xe2, 0xee]

/-- The number of lanes of an instruction on one lane, by its second code. -/
def laneCount (code : UInt32) : UInt8 :=
  if code ≤ 0x17 then 16
  else if code ≤ 0x1a then 8
  else if code ≤ 0x1c then 4
  else if code ≤ 0x1e then 2
  else if code ≤ 0x20 then 4
  else 2

/-- The parts of a vector instruction, by its second code. -/
def vectorImmediates? (code : UInt32) : Option (List Immediate) :=
  if code ≤ 0x0b then some [place]
  else if code = 0x0c then some [bytes 16]
  else if code = 0x0d then some (List.replicate 16 (byteBelow 32))
  else if code ≤ 0x14 then some []
  else if code ≤ 0x22 then some [byteBelow (laneCount code)]
  else if code ≤ 0x53 then some []
  else if code ≤ 0x5b then some [place, byteBelow (16 >>> ((code.toUInt8 - 0x54) % 4))]
  else if code ≤ 0x5d then some [place]
  else if code ≤ 0x113 then
    if vacantVectorCodes.contains code then none else some []
  else none

/-- The parts of an atomic instruction, by its second code. -/
def atomicImmediates? (code : UInt32) : Option (List Immediate) :=
  if code ≤ 0x02 then some [place]
  else if code = 0x03 then some [byteBelow 1]
  else if code < 0x10 then none
  else if code ≤ 0x4e then some [place]
  else if code ≤ 0x5b then some [ordering, index]
  else if code ≤ 0x66 then some [ordering, index, index]
  else if code ≤ 0x71 then some [ordering, index]
  else if code = 0x72 then some []
  else none

/-- The parts of an instruction with one code. -/
def immediatesOf? (code : UInt8) : Option (List Immediate) :=
  match code with
  | 0x00 | 0x01 | 0x05 | 0x0a | 0x0b | 0x0f | 0x19 | 0x1a | 0x1b => some []
  | 0x02 | 0x03 | 0x04 | 0x06 => some [blockType]
  | 0x07 | 0x08 | 0x09 | 0x0c | 0x0d | 0x10 | 0x12 | 0x14 | 0x15 | 0x18 => some [index]
  | 0x0e => some [indices, index]
  | 0x11 | 0x13 => some [index, index]
  | 0x1c => some [one, valType]
  | 0x1f => some [blockType, catches]
  | 0x20 | 0x21 | 0x22 | 0x23 | 0x24 | 0x25 | 0x26 | 0x3f | 0x40 => some [index]
  | 0x41 => some [integer 32]
  | 0x42 => some [integer 64]
  | 0x43 => some [bytes 4]
  | 0x44 => some [bytes 8]
  | 0xd0 => some [heapType]
  | 0xd1 | 0xd3 | 0xd4 => some []
  | 0xd2 | 0xd5 | 0xd6 | 0xe0 | 0xe2 => some [index]
  | 0xe1 | 0xe5 => some [index, index]
  | 0xe3 => some [index, handlers]
  | 0xe4 => some [index, index, handlers]
  | _ =>
    if 0x28 ≤ code && code ≤ 0x3e then some [place]
    else if 0x45 ≤ code && code ≤ 0xc4 then some []
    else none

/-- The instructions whose code has a second part. -/
def subcodes? (code : UInt8) : Option (UInt32 → Option (List Immediate)) :=
  match code with
  | 0xfb => some aggregateImmediates?
  | 0xfc => some bulkImmediates?
  | 0xfd => some vectorImmediates?
  | 0xfe => some atomicImmediates?
  | _ => none

/-- Passes over what follows the first code of an instruction. -/
def skipImmediates (code : UInt8) : Decoder Unit := do
  let parts ← match subcodes? code with
    | some partsOf => do
      let second ← Leb128.u32
      pure (partsOf second)
    | none => pure (immediatesOf? code)
  match parts with
  | some parts => Immediate.skipAll parts
  | none => Decoder.fail

/-- The byte that ends a list of instructions. -/
def endCode : UInt8 := 0x0b

/-- Passes over instructions up to the first end marker; each step takes a byte. -/
def skipExpressionFrom : Nat → Decoder Unit
  | 0 => Decoder.fail
  | fuel + 1 => do
    let code ← Decoder.byte
    if code == endCode then return ()
    else
      skipImmediates code
      skipExpressionFrom fuel

/-- Passes over instructions up to the first end marker. -/
def skipExpression : Decoder Unit := fun bytes => skipExpressionFrom (bytes.length + 1) bytes

end TableKernels.Wasm
