import TableKernels.Wasm.Leb128

/-!
# Types of a module

The types of values, functions, memories and globals in a WebAssembly module, with their written
forms and names. References are told apart only as far as a running module can use them.
-/

namespace TableKernels.Wasm

/-- Bytes with their number in front. -/
def sized (bytes : Bytes) : Bytes := Leb128.ofNat bytes.length ++ bytes

/-- Items in a row with their count in front. -/
def vector {α : Type} (encode : α → Bytes) (items : List α) : Bytes :=
  Leb128.ofNat items.length ++ items.flatMap encode

/-- Items in a row after their count, which must not exceed a limit. -/
def Decoder.vector {α : Type} (item : Decoder α) (limit : Nat) : Decoder (List α) := do
  let count ← Leb128.natural 32
  require (count ≤ limit)
  times item count

/-- The most bytes that a name may have. -/
def nameLimit : Nat := 100000

/-- A name: its UTF-8 bytes with their length in front. -/
def encodeName (name : String) : Bytes := sized name.toUTF8.toList

/-- Reads a name. -/
def decodeName : Decoder String := do
  let length ← Leb128.natural 32
  Decoder.require (length ≤ nameLimit)
  let bytes ← Decoder.take length
  match String.fromUTF8? ⟨bytes.toArray⟩ with
  | some name => return name
  | none => Decoder.fail

/--
The type of a reference. A running module may use references to functions and to things of its host,
which may be null; all others occur only in modules that are looked at.
-/
inductive RefType
  | func
  | host
  | other
deriving DecidableEq

/-- The type of a value. -/
inductive ValType
  | i32
  | i64
  | f32
  | f64
  | v128
  | ref (type : RefType)
deriving DecidableEq

namespace ValType

/-- The name of a type. -/
def name : ValType → String
  | i32 => "i32"
  | i64 => "i64"
  | f32 => "f32"
  | f64 => "f64"
  | v128 => "v128"
  | ref _ => "ref"

/-- The byte of a type; a reference of another kind is written as one to anything at all. -/
def code : ValType → UInt8
  | i32 => 0x7f
  | i64 => 0x7e
  | f32 => 0x7d
  | f64 => 0x7c
  | v128 => 0x7b
  | ref .func => 0x70
  | ref .host => 0x6f
  | ref .other => 0x6e

/-- Whether values of the type occur in a running module. -/
def isRunnable : ValType → Bool
  | v128 | ref .other => false
  | _ => true

end ValType

/-- What a reference may refer to, as far as types tell it apart. -/
def RefType.ofHeapCode? (code : UInt8) : Option RefType :=
  if code = 0x70 then some func
  else if code = 0x6f then some host
  else if 0x68 ≤ code && code ≤ 0x75 then some other
  else none

/-- The number of types that a module can refer to by index. -/
def typeIndexLimit : Nat := 0x100000

/-- What a reference refers to: a kind of things, perhaps shared, or a defined type by its index. -/
def RefType.decodeHeap : Decoder RefType
  | [] => none
  | first :: rest =>
    match ofHeapCode? first with
    | some type => some (type, rest)
    | none =>
      if first = 0x65 then
        match rest with
        | second :: rest => (ofHeapCode? second).map fun _ => (other, rest)
        | [] => none
      else
        match Leb128.integer 33 (first :: rest) with
        | some (index, rest) =>
          if 0 ≤ index ∧ index < typeIndexLimit then some (other, rest) else none
        | none => none

/-- The type of a reference: nullable with or without a mark, not nullable only with one. -/
def RefType.decode : Decoder RefType
  | 0x63 :: rest => decodeHeap rest
  | 0x64 :: rest => (decodeHeap rest).map fun (_, rest) => (other, rest)
  | bytes => decodeHeap bytes

/-- Reads a type. -/
def decodeValType : Decoder ValType
  | 0x7f :: rest => some (.i32, rest)
  | 0x7e :: rest => some (.i64, rest)
  | 0x7d :: rest => some (.f32, rest)
  | 0x7c :: rest => some (.f64, rest)
  | 0x7b :: rest => some (.v128, rest)
  | bytes => (RefType.decode bytes).map fun (type, rest) => (.ref type, rest)

/-- The type of a function. -/
structure FuncType where
  params : List ValType
  results : List ValType
deriving DecidableEq

/-- The most parameters, and the most results, that a function may have. -/
def arityLimit : Nat := 1000

/-- The written form of a function type. -/
def FuncType.encode (type : FuncType) : Bytes :=
  0x60 :: vector (fun value => [ValType.code value]) type.params ++
    vector (fun value => [ValType.code value]) type.results

/-- The types of what a function takes and leaves. -/
def FuncType.decodeArity : Decoder FuncType := do
  let params ← Decoder.vector decodeValType arityLimit
  let results ← Decoder.vector decodeValType arityLimit
  return ⟨params, results⟩

/-- The definition of a function type. -/
structure TypeEntry where
  type : FuncType
  /-- The type is defined in a group of its own. -/
  grouped : Bool
  shared : Bool
deriving DecidableEq

namespace TypeEntry

/-- The opening of a group of types, of which a function type is the only one. -/
def decodeGroup : Decoder Bool
  | 0x4e :: rest =>
    match Leb128.natural 32 rest with
    | some (1, rest) => some (true, rest)
    | _ => none
  | bytes => some (false, bytes)

/-- Passes over the mark of a final type, which may have no supertype. -/
def decodeFinal : Decoder Unit
  | 0x4f :: rest =>
    match Leb128.natural 32 rest with
    | some (0, rest) => some ((), rest)
    | _ => none
  | bytes => some ((), bytes)

/-- The mark of a shared type. -/
def decodeShared : Decoder Bool
  | 0x65 :: rest => some (true, rest)
  | bytes => some (false, bytes)

/-- The definition of a function type; no other kind of type is known. -/
def decode : Decoder TypeEntry := do
  let grouped ← decodeGroup
  decodeFinal
  let shared ← decodeShared
  Decoder.expect 0x60
  return ⟨← FuncType.decodeArity, grouped, shared⟩

end TypeEntry

/-- A size of what is addressed with 64 or with 32 bits. -/
def decodeLimit (wide : Bool) : Decoder UInt64 := do
  return UInt64.ofNat (← Leb128.natural (if wide then 64 else 32))

/-- What a decoder takes, if a flag asks for it. -/
def Decoder.part {α : Type} (flag : Bool) (decoder : Decoder α) : Decoder (Option α) :=
  if flag then do return some (← decoder) else return none

/-- The type of a memory: its limits in pages, and how it is addressed. -/
structure MemoryType where
  minPages : UInt64
  maxPages : Option UInt64
  /-- Addresses have 64 bits. -/
  wide : Bool
  shared : Bool
  pageSizeLog2 : Option UInt32
deriving DecidableEq

namespace MemoryType

/-- A memory with 32-bit addresses and limits. -/
def plain (minPages maxPages : UInt64) : MemoryType :=
  ⟨minPages, some maxPages, false, false, none⟩

/-- The type of addresses. -/
def addressType (type : MemoryType) : ValType := if type.wide then .i64 else .i32

/-- The byte that says which parts of a memory type are written. -/
def flags (type : MemoryType) : UInt8 :=
  (if type.maxPages.isSome then 1 else 0) + (if type.shared then 2 else 0) +
    (if type.wide then 4 else 0) + (if type.pageSizeLog2.isSome then 8 else 0)

/-- The written form of a memory type. -/
def encode (type : MemoryType) : Bytes :=
  type.flags :: Leb128.ofNat type.minPages.toNat ++
    (type.maxPages.map fun pages => Leb128.ofNat pages.toNat).getD [] ++
    (type.pageSizeLog2.map fun log => Leb128.ofNat log.toNat).getD []

/-- Reads a memory type. -/
def decode : Decoder MemoryType := do
  let flags ← Decoder.byte
  Decoder.require (flags < 16)
  let wide := flags &&& 4 != 0
  let minPages ← decodeLimit wide
  let maxPages ← Decoder.part (flags &&& 1 != 0) (decodeLimit wide)
  let pageSizeLog2 ← Decoder.part (flags &&& 8 != 0) Leb128.u32
  return ⟨minPages, maxPages, wide, flags &&& 2 != 0, pageSizeLog2⟩

end MemoryType

/-- The type of a table: what its entries refer to, its limits, and how it is addressed. -/
structure TableType where
  entries : RefType
  min : UInt64
  max : Option UInt64
  /-- Indices have 64 bits. -/
  wide : Bool
  shared : Bool
deriving DecidableEq

namespace TableType

/-- The type of the indices of a table. -/
def indexType (type : TableType) : ValType := if type.wide then .i64 else .i32

/-- The byte that says which parts of a table type are written. -/
def flags (type : TableType) : UInt8 :=
  (if type.max.isSome then 1 else 0) + (if type.shared then 2 else 0) +
    (if type.wide then 4 else 0)

/-- The written form of a table type. -/
def encode (type : TableType) : Bytes :=
  (ValType.ref type.entries).code :: type.flags :: Leb128.ofNat type.min.toNat ++
    (type.max.map fun size => Leb128.ofNat size.toNat).getD []

/-- Reads a table type. -/
def decode : Decoder TableType := do
  let entries ← RefType.decode
  let flags ← Decoder.byte
  Decoder.require (flags < 8)
  let wide := flags &&& 4 != 0
  let min ← decodeLimit wide
  let max ← Decoder.part (flags &&& 1 != 0) (decodeLimit wide)
  return ⟨entries, min, max, wide, flags &&& 2 != 0⟩

end TableType

/-- The type of a global. -/
structure GlobalType where
  type : ValType
  isMutable : Bool
  shared : Bool
deriving DecidableEq

/-- The written form of the type of a global. -/
def GlobalType.encode (type : GlobalType) : Bytes :=
  [type.type.code, (if type.isMutable then 1 else 0) + (if type.shared then 2 else 0)]

/-- Reads the type of a global. -/
def GlobalType.decode : Decoder GlobalType := do
  let type ← decodeValType
  let flags ← Decoder.byte
  Decoder.require (flags < 4)
  return ⟨type, flags &&& 1 != 0, flags &&& 2 != 0⟩

end TableKernels.Wasm
