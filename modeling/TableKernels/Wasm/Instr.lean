import TableKernels.Wasm.Access
import TableKernels.Wasm.Operator

/-!
# Instructions

Code is a list of instructions in which blocks hold their bodies, so that nesting is part of the
data. Plain instructions (`Op`) only transform the state; the others steer control. `encodeCode`
writes a list up to its end marker, and `decodeCode` reads one back. Instructions on vectors, on
shared memory, on objects and on exceptions are not among them: they belong to extensions of the
format that are left off.
-/

namespace TableKernels.Wasm

/-- Instructions that do not steer control. -/
inductive Op
  | nop
  | drop
  /-- Of two operands the first if a condition holds; their type may be given. -/
  | select (type : Option ValType)
  | localGet (index : UInt32)
  | localSet (index : UInt32)
  | localTee (index : UInt32)
  | globalGet (index : UInt32)
  | globalSet (index : UInt32)
  | tableGet (table : UInt32)
  | tableSet (table : UInt32)
  | load (form : Load) (place : MemoryPlace)
  | save (form : Save) (place : MemoryPlace)
  | memorySize (memory : UInt32)
  | memoryGrow (memory : UInt32)
  | memoryInit (segment memory : UInt32)
  | dataDrop (segment : UInt32)
  | memoryCopy (target source : UInt32)
  | memoryFill (memory : UInt32)
  | tableInit (segment table : UInt32)
  | elemDrop (segment : UInt32)
  | tableCopy (target source : UInt32)
  | tableGrow (table : UInt32)
  | tableSize (table : UInt32)
  | tableFill (table : UInt32)
  | i32Const (value : UInt32)
  | i64Const (value : UInt64)
  | f32Const (bits : UInt32)
  | f64Const (bits : UInt64)
  | refNull (type : RefType)
  | refIsNull
  | refFunc (function : UInt32)
  | numeric (operator : Operator)
deriving DecidableEq

namespace Op

/-- Loads a wide integer. -/
@[match_pattern] abbrev i64Load (place : MemoryPlace) : Op := load .i64 place

/-- Loads a byte as a narrow integer. -/
@[match_pattern] abbrev i32Load8U (place : MemoryPlace) : Op := load .i32From8U place

/-- Saves a wide integer. -/
@[match_pattern] abbrev i64Store (place : MemoryPlace) : Op := save .i64 place

/-- Saves the low byte of a narrow integer. -/
@[match_pattern] abbrev i32Store8 (place : MemoryPlace) : Op := save .i32To8 place

end Op

/-- The type of a block: nothing, one result, or a function type by its index. -/
inductive BlockType
  | empty
  | result (type : ValType)
  | function (index : UInt32)
deriving DecidableEq

/-- What a block takes and leaves, among the types of its module. -/
def BlockType.type? (types : List FuncType) : BlockType → Option FuncType
  | empty => some ⟨[], []⟩
  | result type => if type.isRunnable then some ⟨[], [type]⟩ else none
  | function index => types[index.toNat]?

/-- Instructions. -/
inductive Instr
  | op (op : Op)
  | unreachable
  | blockOf (type : BlockType) (body : List Instr)
  | loopOf (type : BlockType) (body : List Instr)
  /-- The first part if a condition holds, and otherwise the other one. -/
  | branch (type : BlockType) (body other : List Instr)
  | br (depth : UInt32)
  | brIf (depth : UInt32)
  /-- A jump chosen by a number; the default is for the numbers that have no target. -/
  | brTable (targets : List UInt32) (default : UInt32)
  | ret
  | call (function : UInt32)
  | callIndirect (type table : UInt32)
  /-- A call in place of the one that is running. -/
  | returnCall (function : UInt32)
  | returnCallIndirect (type table : UInt32)

namespace Instr

/-- A block that takes and leaves nothing. -/
@[match_pattern] abbrev block (body : List Instr) : Instr := blockOf .empty body

/-- A loop that takes and leaves nothing. -/
@[match_pattern] abbrev loop (body : List Instr) : Instr := loopOf .empty body

/-- Code for the case that a condition holds, which takes and leaves nothing. -/
@[match_pattern] abbrev ifThen (body : List Instr) : Instr := branch .empty body []

end Instr

mutual

/-- The plain instructions of an instruction, those in its blocks included. -/
def Instr.plainOps : Instr → List Op
  | .op op => [op]
  | .blockOf _ body | .loopOf _ body => Wasm.plainOps body
  | .branch _ body other => Wasm.plainOps body ++ Wasm.plainOps other
  | .unreachable | .br _ | .brIf _ | .brTable _ _ | .ret | .call _ | .callIndirect _ _
  | .returnCall _ | .returnCallIndirect _ _ => []

/-- The plain instructions of code, those in blocks included. -/
def plainOps : List Instr → List Op
  | [] => []
  | instr :: code => instr.plainOps ++ Wasm.plainOps code

end

/-- Whether code takes bytes of data segments, or drops them. -/
def usesData (code : List Instr) : Bool :=
  (plainOps code).any fun op => match op with
    | .memoryInit _ _ | .dataDrop _ => true
    | _ => false

/-! ## Writing -/

/-- The byte of a reference type. -/
def RefType.code (type : RefType) : UInt8 := (ValType.ref type).code

/-- The written form of a plain instruction. -/
def Op.encode : Op → Bytes
  | nop => [0x01]
  | drop => [0x1a]
  | select none => [0x1b]
  | select (some type) => [0x1c, 1, type.code]
  | localGet index => 0x20 :: encodeIndex index
  | localSet index => 0x21 :: encodeIndex index
  | localTee index => 0x22 :: encodeIndex index
  | globalGet index => 0x23 :: encodeIndex index
  | globalSet index => 0x24 :: encodeIndex index
  | tableGet table => 0x25 :: encodeIndex table
  | tableSet table => 0x26 :: encodeIndex table
  | load form place => form.code :: place.encode
  | save form place => form.code :: place.encode
  | memorySize memory => 0x3f :: encodeIndex memory
  | memoryGrow memory => 0x40 :: encodeIndex memory
  | i32Const value => 0x41 :: Leb128.ofInt value.toInt32.toInt
  | i64Const value => 0x42 :: Leb128.ofInt value.toInt64.toInt
  | f32Const bits => 0x43 :: LittleEndian.encode 4 bits.toUInt64
  | f64Const bits => 0x44 :: LittleEndian.encode 8 bits
  | refNull type => [0xd0, type.code]
  | refIsNull => [0xd1]
  | refFunc function => 0xd2 :: encodeIndex function
  | memoryInit segment memory => 0xfc :: 8 :: encodeIndex segment ++ encodeIndex memory
  | dataDrop segment => 0xfc :: 9 :: encodeIndex segment
  | memoryCopy target source => 0xfc :: 10 :: encodeIndex target ++ encodeIndex source
  | memoryFill memory => 0xfc :: 11 :: encodeIndex memory
  | tableInit segment table => 0xfc :: 12 :: encodeIndex segment ++ encodeIndex table
  | elemDrop segment => 0xfc :: 13 :: encodeIndex segment
  | tableCopy target source => 0xfc :: 14 :: encodeIndex target ++ encodeIndex source
  | tableGrow table => 0xfc :: 15 :: encodeIndex table
  | tableSize table => 0xfc :: 16 :: encodeIndex table
  | tableFill table => 0xfc :: 17 :: encodeIndex table
  | numeric operator => operator.encode

/-- The byte of the type of a block without operands. -/
def emptyBlockCode : UInt8 := 0x40

/-- The written form of the type of a block. -/
def BlockType.encode : BlockType → Bytes
  | empty => [emptyBlockCode]
  | result type => [type.code]
  | function index => Leb128.ofInt index.toNat

/-- The byte between the two parts of a branch. -/
def elseCode : UInt8 := 0x05

mutual

/-- The written form of an instruction; an empty second part of a branch is left out. -/
def Instr.encode : Instr → Bytes
  | .op op => op.encode
  | .unreachable => [0x00]
  | .blockOf type body => 0x02 :: type.encode ++ encodeRun body ++ [endCode]
  | .loopOf type body => 0x03 :: type.encode ++ encodeRun body ++ [endCode]
  | .branch type body other =>
    0x04 :: type.encode ++ encodeRun body ++
      (if other.isEmpty then [] else elseCode :: encodeRun other) ++ [endCode]
  | .br depth => 0x0c :: encodeIndex depth
  | .brIf depth => 0x0d :: encodeIndex depth
  | .brTable targets default => 0x0e :: vector encodeIndex targets ++ encodeIndex default
  | .ret => [0x0f]
  | .call function => 0x10 :: encodeIndex function
  | .callIndirect type table => 0x11 :: encodeIndex type ++ encodeIndex table
  | .returnCall function => 0x12 :: encodeIndex function
  | .returnCallIndirect type table => 0x13 :: encodeIndex type ++ encodeIndex table

/-- The written form of instructions in a row. -/
def encodeRun : List Instr → Bytes
  | [] => []
  | instr :: code => instr.encode ++ encodeRun code

end

/-- The written form of instructions up to their end. -/
def encodeCode (code : List Instr) : Bytes := encodeRun code ++ [endCode]

/-! ## Reading -/

/-- A plain instruction with two codes whose first byte was read. -/
def Op.decodeExtended : Decoder Op := do
  let second ← Leb128.u32
  match second with
  | 8 => do return memoryInit (← Leb128.u32) (← Leb128.u32)
  | 9 => do return dataDrop (← Leb128.u32)
  | 10 => do return memoryCopy (← Leb128.u32) (← Leb128.u32)
  | 11 => do return memoryFill (← Leb128.u32)
  | 12 => do return tableInit (← Leb128.u32) (← Leb128.u32)
  | 13 => do return elemDrop (← Leb128.u32)
  | 14 => do return tableCopy (← Leb128.u32) (← Leb128.u32)
  | 15 => do return tableGrow (← Leb128.u32)
  | 16 => do return tableSize (← Leb128.u32)
  | 17 => do return tableFill (← Leb128.u32)
  | second =>
    match Operator.ofSecondCode? second with
    | some operator => return numeric operator
    | none => Decoder.fail

/-- A load, a save or an operator, each of which is known by its code. -/
def Op.decodeListed (code : UInt8) : Decoder Op :=
  match Load.ofCode? code with
  | some form => do return load form (← MemoryPlace.decode)
  | none =>
    match Save.ofCode? code with
    | some form => do return save form (← MemoryPlace.decode)
    | none =>
      match Operator.ofCode? code with
      | some operator => return numeric operator
      | none => Decoder.fail

/-- A plain instruction whose first byte was read. -/
def Op.decode (code : UInt8) : Decoder Op :=
  match code with
  | 0x01 => return nop
  | 0x1a => return drop
  | 0x1b => return select none
  | 0x1c => do
    Decoder.require ((← Leb128.u32) == 1)
    return select (some (← decodeValType))
  | 0x20 => do return localGet (← Leb128.u32)
  | 0x21 => do return localSet (← Leb128.u32)
  | 0x22 => do return localTee (← Leb128.u32)
  | 0x23 => do return globalGet (← Leb128.u32)
  | 0x24 => do return globalSet (← Leb128.u32)
  | 0x25 => do return tableGet (← Leb128.u32)
  | 0x26 => do return tableSet (← Leb128.u32)
  | 0x3f => do return memorySize (← Leb128.u32)
  | 0x40 => do return memoryGrow (← Leb128.u32)
  | 0x41 => do return i32Const (Int32.ofInt (← Leb128.integer 32)).toUInt32
  | 0x42 => do return i64Const (Int64.ofInt (← Leb128.integer 64)).toUInt64
  | 0x43 => do return f32Const (LittleEndian.decode (← Decoder.take 4)).toUInt32
  | 0x44 => do return f64Const (LittleEndian.decode (← Decoder.take 8))
  | 0xd0 => do return refNull (← RefType.decodeHeap)
  | 0xd1 => return refIsNull
  | 0xd2 => do return refFunc (← Leb128.u32)
  | 0xfc => decodeExtended
  | code => decodeListed code

/-- The type of a block. A byte that stands for nothing or a type begins no index. -/
def BlockType.decode : Decoder BlockType
  | [] => none
  | first :: rest =>
    if first = emptyBlockCode then some (empty, rest)
    else if emptyBlockCode < first ∧ first < 0x80 then
      (decodeValType (first :: rest)).map fun (type, rest) => (result type, rest)
    else
      match Leb128.integer 33 (first :: rest) with
      | some (index, rest) => if 0 ≤ index then some (function index.toNat.toUInt32, rest) else none
      | none => none

/-- Instructions that must end where their block ends, read by a decoder that gives their end. -/
def decodeClosed (run : Decoder (List Instr × UInt8)) : Decoder (List Instr) := do
  let (code, last) ← run
  Decoder.require (last == endCode)
  return code

/-- The parts of a branch, of which the second may be left out. -/
def decodeBranch (type : BlockType) (run : Decoder (List Instr × UInt8)) : Decoder Instr := do
  let (body, last) ← run
  if last == endCode then return .branch type body []
  else return .branch type body (← decodeClosed run)

/--
An instruction whose first byte was read; `run` reads the instructions of a block, up to the byte
that ends them.
-/
def decodeInstr (run : Decoder (List Instr × UInt8)) (code : UInt8) : Decoder Instr :=
  match code with
  | 0x00 => return .unreachable
  | 0x02 => do return .blockOf (← BlockType.decode) (← decodeClosed run)
  | 0x03 => do return .loopOf (← BlockType.decode) (← decodeClosed run)
  | 0x04 => do decodeBranch (← BlockType.decode) run
  | 0x0c => do return .br (← Leb128.u32)
  | 0x0d => do return .brIf (← Leb128.u32)
  | 0x0e => do
    let targets ← Decoder.vector Leb128.u32 Immediate.labelLimit
    return .brTable targets (← Leb128.u32)
  | 0x0f => return .ret
  | 0x10 => do return .call (← Leb128.u32)
  | 0x11 => do return .callIndirect (← Leb128.u32) (← Leb128.u32)
  | 0x12 => do return .returnCall (← Leb128.u32)
  | 0x13 => do return .returnCallIndirect (← Leb128.u32) (← Leb128.u32)
  | code => do return .op (← Op.decode code)

/-- Instructions up to the byte that ends them, which is given as well; each step takes a byte. -/
def decodeRunFrom : Nat → Decoder (List Instr × UInt8)
  | 0 => Decoder.fail
  | fuel + 1 => do
    let code ← Decoder.byte
    if code == endCode || code == elseCode then return ([], code)
    else
      let instr ← decodeInstr (decodeRunFrom fuel) code
      let (code, last) ← decodeRunFrom fuel
      return (instr :: code, last)

/-- Instructions up to their end. -/
def decodeCode : Decoder (List Instr) := fun bytes =>
  decodeClosed (decodeRunFrom (bytes.length + 1)) bytes

end TableKernels.Wasm
