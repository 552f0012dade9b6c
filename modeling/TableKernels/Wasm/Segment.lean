import TableKernels.Wasm.Constant

/-!
# Segments

A segment carries bytes for a memory or references for a table. One with a target is put in its
place before the module starts; one without only lies ready.
-/

namespace TableKernels.Wasm

/-- Where the content of a segment goes when the module starts. -/
structure SegmentTarget where
  /-- The index of a memory or of a table. -/
  index : UInt32
  offset : Constant

/-- Bytes for a memory; without a target they are put nowhere at the start. -/
structure DataSegment where
  target : Option SegmentTarget
  content : Bytes

namespace DataSegment

/-- Where the bytes of a segment go. -/
def decodeTarget : Decoder (Option SegmentTarget) := do
  match ← Leb128.natural 32 with
  | 0 => return some ⟨0, ← Constant.decode⟩
  | 1 => return none
  | 2 => do
    let memory ← Leb128.u32
    return some ⟨memory, ← Constant.decode⟩
  | _ => Decoder.fail

/-- A segment of bytes. -/
def decode : Decoder DataSegment := do
  let target ← decodeTarget
  let size ← Leb128.natural 32
  return ⟨target, ← Decoder.take size⟩

/-- The written form of where the bytes go. -/
def encodeTarget : Option SegmentTarget → Bytes
  | none => [1]
  | some target =>
    if target.index = 0 then 0 :: target.offset.encode
    else 2 :: encodeIndex target.index ++ target.offset.encode

/-- The written form of a segment. -/
def encode (segment : DataSegment) : Bytes :=
  encodeTarget segment.target ++ sized segment.content

end DataSegment

/-- References for a table; without a target they are put nowhere at the start. -/
structure ElementSegment where
  target : Option SegmentTarget
  /-- The references may be taken by code, and the segment holds them for nothing else. -/
  declared : Bool
  type : RefType
  items : List Constant

namespace ElementSegment

/-- Where the references of a segment go, by the low bits of its flags. -/
def decodeTarget (flags : Nat) : Decoder (Option SegmentTarget) :=
  if flags % 2 = 1 then return none
  else do
    let table ← Decoder.part (flags / 2 % 2 = 1) Leb128.u32
    return some ⟨table.getD 0, ← Constant.decode⟩

/-- The type of the references, which is left out in the least form of a segment. -/
def decodeType (flags : Nat) : Decoder RefType :=
  if flags % 4 = 0 then return .func
  else if flags / 4 % 2 = 1 then RefType.decode
  else do
    Decoder.expect 0
    return .func

/-- A reference: a constant, or the index of a function. -/
def decodeItem (flags : Nat) : Decoder Constant :=
  if flags / 4 % 2 = 1 then Constant.decode
  else do return Constant.ofWord (.funcRef (some (← Leb128.u32)))

/-- The most references that a segment may have. -/
def itemLimit : Nat := 10000000

/-- A segment of references. -/
def decode : Decoder ElementSegment := do
  let flags ← Leb128.natural 32
  Decoder.require (flags < 8)
  let target ← decodeTarget flags
  let type ← decodeType flags
  return ⟨target, flags % 4 = 3, type, ← Decoder.vector (decodeItem flags) itemLimit⟩

/-- The written form of a segment: references are written as constants, after their type. -/
def encode (segment : ElementSegment) : Bytes :=
  (match segment.target with
    | none => [if segment.declared then 7 else 5]
    | some target => 6 :: encodeIndex target.index ++ target.offset.encode) ++
    (ValType.ref segment.type).code :: vector Constant.encode segment.items

/-- The references that a segment holds; those of a declared one may not be taken from it. -/
def words? (segment : ElementSegment) : Option (List Word) :=
  if segment.declared then some [] else segment.items.mapM (·.value?)

end ElementSegment

end TableKernels.Wasm
