import TableKernels.Wasm.Module

/-!
# Assemblies

The sections of a module as its text adds to them, field by field. Types, imports and the like are
known as what they are; whatever holds instructions is known by its bytes alone, which nobody has
read yet. `Assembly.encode` puts the sections together.
-/

namespace TableKernels.Wasm.Text

/-- The items of the sections of a module. -/
structure Assembly where
  types : List FuncType
  imports : Array Import
  /-- The indices of the types of functions. -/
  functions : Array UInt32
  tables : Array TableType
  memories : Array MemoryType
  globals : Array Bytes
  exports : Array Export
  start : Option UInt32
  elements : Array Bytes
  bodies : Array Bytes
  data : Array Bytes
  /-- Code takes bytes of data segments, which are counted in a section of their own then. -/
  usesData : Bool

namespace Assembly

/-- A module of nothing but types. -/
def ofTypes (types : List FuncType) : Assembly :=
  ⟨types, #[], #[], #[], #[], #[], #[], none, #[], #[], #[], false⟩

/-- The bytes of what was gathered. -/
def encode (assembly : Assembly) : Bytes :=
  Module.header ++ Module.listed 1 FuncType.encode assembly.types ++
    Module.listed 2 Import.encode assembly.imports.toList ++
    Module.listed 3 encodeIndex assembly.functions.toList ++
    Module.listed 4 TableType.encode assembly.tables.toList ++
    Module.listed 5 MemoryType.encode assembly.memories.toList ++
    Module.listed 6 id assembly.globals.toList ++
    Module.listed 7 Export.encode assembly.exports.toList ++
    (assembly.start.map fun function => Section.encode 8 (encodeIndex function)).getD [] ++
    Module.listed 9 id assembly.elements.toList ++
    (if assembly.usesData then Section.encode 12 (Leb128.ofNat assembly.data.size) else []) ++
    Module.listed 10 id assembly.bodies.toList ++
    Module.listed 11 id assembly.data.toList

/-- How many things of a kind there are so far, imported ones included. -/
def count (assembly : Assembly) (kind : ExternKind) : Nat :=
  assembly.imports.countP (fun item => item.kind.externKind = kind) + match kind with
    | .func => assembly.functions.size
    | .table => assembly.tables.size
    | .memory => assembly.memories.size
    | .global => assembly.globals.size
    | .tag => 0

/-- The index of the next thing of a kind. -/
def nextIndex (assembly : Assembly) (kind : ExternKind) : UInt32 :=
  UInt32.ofNat (assembly.count kind)

/-- Whether nothing is defined yet that could have been imported. -/
def mayImport (assembly : Assembly) : Bool :=
  assembly.functions.isEmpty && assembly.tables.isEmpty && assembly.memories.isEmpty &&
    assembly.globals.isEmpty

/-- One more import. -/
def addImport (assembly : Assembly) (source : String × String) (kind : ImportKind) : Assembly :=
  { assembly with imports := assembly.imports.push ⟨source.1, source.2, kind⟩ }

/-- The module that exports its next thing of a kind under some names. -/
def addExports (assembly : Assembly) (kind : ExternKind) (names : List String) : Assembly :=
  { assembly with
    exports := assembly.exports ++ names.map (Export.mk · kind (assembly.nextIndex kind)) }

/-- The module with one more function: the index of its type, its body, and its use of data. -/
def addFunction (assembly : Assembly) (type : UInt32) (body : Bytes) (takesData : Bool) :
    Assembly :=
  { assembly with
    functions := assembly.functions.push type, bodies := assembly.bodies.push body
    usesData := assembly.usesData || takesData }

/-- One more table. -/
def addTable (assembly : Assembly) (type : TableType) : Assembly :=
  { assembly with tables := assembly.tables.push type }

/-- One more memory. -/
def addMemory (assembly : Assembly) (type : MemoryType) : Assembly :=
  { assembly with memories := assembly.memories.push type }

/-- One more global, in bytes. -/
def addGlobal (assembly : Assembly) (item : Bytes) : Assembly :=
  { assembly with globals := assembly.globals.push item }

/-- One more export. -/
def addExport (assembly : Assembly) (item : Export) : Assembly :=
  { assembly with exports := assembly.exports.push item }

/-- The module with one more segment of references. -/
def addElements (assembly : Assembly) (segment : Bytes) : Assembly :=
  { assembly with elements := assembly.elements.push segment }

/-- The module with one more segment of bytes. -/
def addData (assembly : Assembly) (segment : Bytes) : Assembly :=
  { assembly with data := assembly.data.push segment }

end Assembly

end TableKernels.Wasm.Text
