import TableKernels.Wasm.Immediate

/-!
# Imports and exports

What a module wants from outside and what it offers, each under a name. An import carries the type
of what is wanted; an export only points at something that the module has.
-/

namespace TableKernels.Wasm

/-- What a module imports. -/
inductive ImportKind
  | func (type : UInt32)
  | table (type : TableType)
  | memory (type : MemoryType)
  | global (type : GlobalType)
  | tag (type : UInt32)
deriving DecidableEq

/-- An import of a module. -/
structure Import where
  moduleName : String
  name : String
  kind : ImportKind
deriving DecidableEq

namespace Import

/-- Reads what an import asks for. -/
def decodeKind : Decoder ImportKind := do
  match ← Decoder.byte with
  | 0 => return .func (← Leb128.u32)
  | 1 => return .table (← TableType.decode)
  | 2 => return .memory (← MemoryType.decode)
  | 3 => return .global (← GlobalType.decode)
  | 4 => do
    Decoder.expect 0
    return .tag (← Leb128.u32)
  | _ => Decoder.fail

/-- Reads an import. -/
def decode : Decoder Import := do
  let moduleName ← decodeName
  let name ← decodeName
  return ⟨moduleName, name, ← decodeKind⟩

/-- The written form of what an import brings in. -/
def encodeKind : ImportKind → Bytes
  | .func type => 0 :: encodeIndex type
  | .table type => 1 :: type.encode
  | .memory type => 2 :: type.encode
  | .global type => 3 :: type.encode
  | .tag type => 4 :: 0 :: encodeIndex type

/-- The written form of an import. -/
def encode (item : Import) : Bytes :=
  encodeName item.moduleName ++ encodeName item.name ++ encodeKind item.kind

end Import

/-- What kind of thing a module imports or exports. -/
inductive ExternKind
  | func
  | table
  | memory
  | global
  | tag
deriving DecidableEq

/-- The code of a kind. -/
def ExternKind.code : ExternKind → UInt8
  | func => 0
  | table => 1
  | memory => 2
  | global => 3
  | tag => 4

/-- The kind with a code. -/
def ExternKind.ofCode? (code : UInt8) : Option ExternKind :=
  match code with
  | 0 => some func
  | 1 => some table
  | 2 => some memory
  | 3 => some global
  | 4 => some tag
  | _ => none

/-- The kind of thing that an import brings in. -/
def ImportKind.externKind : ImportKind → ExternKind
  | func _ => .func
  | table _ => .table
  | memory _ => .memory
  | global _ => .global
  | tag _ => .tag

/-- An export of a module. -/
structure Export where
  name : String
  kind : ExternKind
  index : UInt32
deriving DecidableEq

namespace Export

/-- Reads an export. -/
def decode : Decoder Export := do
  let name ← decodeName
  match ExternKind.ofCode? (← Decoder.byte) with
  | some kind => return ⟨name, kind, ← Leb128.u32⟩
  | none => Decoder.fail

/-- The written form of an export. -/
def encode (item : Export) : Bytes :=
  encodeName item.name ++ item.kind.code :: encodeIndex item.index

end Export

end TableKernels.Wasm
