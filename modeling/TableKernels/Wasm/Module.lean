import TableKernels.Wasm.Extern
import TableKernels.Wasm.Outline
import TableKernels.Wasm.Segment

/-!
# Modules

A `Module` is the content of a WebAssembly module that can be run: its types, imports, functions,
tables, memories, globals, exports, start function, segments and any custom sections. `encode`
writes one and `decode?` reads one; reading asks for version 1 and for the sections in their order,
at most once each, with custom sections anywhere.
-/

namespace TableKernels.Wasm

/-- A global with its first value. -/
structure Global where
  type : GlobalType
  value : Constant

namespace Global

/-- A global. -/
def decode : Decoder Global := do
  let type ← GlobalType.decode
  return ⟨type, ← Constant.decode⟩

/-- The written form of a global. -/
def encode (item : Global) : Bytes := item.type.encode ++ item.value.encode

end Global

/-- The body of a function: its locals in groups of one type, and its code. -/
structure Body where
  locals : List (UInt32 × ValType)
  code : List Instr

namespace Body

/-- A group of locals. -/
def decodeLocals : Decoder (UInt32 × ValType) := do
  let count ← Leb128.u32
  return (count, ← decodeValType)

/-- The written form of a group of locals. -/
def encodeLocals (group : UInt32 × ValType) : Bytes :=
  encodeIndex group.1 ++ [group.2.code]

/-- The most locals that a function may have. -/
def localLimit : Nat := 50000

/-- The number of locals in groups. -/
def localCount (groups : List (UInt32 × ValType)) : Nat :=
  groups.foldl (fun total group => total + group.1.toNat) 0

/-- A body without its length. -/
def decode : Decoder Body := do
  let locals ← Decoder.vector decodeLocals localLimit
  Decoder.require (localCount locals ≤ localLimit)
  return ⟨locals, ← decodeCode⟩

/-- The written form of a body whose code is given in bytes, with its length in front. -/
def encodeWith (locals : List (UInt32 × ValType)) (code : Bytes) : Bytes :=
  sized (vector encodeLocals locals ++ code)

/-- The written form of a body, with its length in front. -/
def encode (body : Body) : Bytes := encodeWith body.locals (encodeCode body.code)

end Body

/-- A function of a module: the index of its type, and its body. -/
structure Function where
  type : UInt32
  body : Body

/-- The content of a module. -/
structure Module where
  types : List FuncType
  imports : List Import
  functions : List Function
  tables : List TableType
  memories : List MemoryType
  globals : List Global
  exports : List Export
  start : Option UInt32
  elements : List ElementSegment
  data : List DataSegment
  customs : List (String × Bytes)

namespace Module

/-- A module without anything. -/
def empty : Module := ⟨[], [], [], [], [], [], [], none, [], [], []⟩

/-- The header of a module: the magic bytes, version 1 and the layer of modules. -/
def header : Bytes := magic ++ [1, 0, 0, 0]

/-- A section of items, left out when there are none. -/
def listed {α : Type} (code : UInt8) (item : α → Bytes) (items : List α) : Bytes :=
  if items.isEmpty then [] else Section.encodeItems code item items

/-- The written form of a custom section. -/
def encodeCustom (custom : String × Bytes) : Bytes :=
  Section.encode 0 (encodeName custom.1 ++ custom.2)

/--
The number of data segments, which has a section of its own in front of code that takes bytes of
them.
-/
def encodeDataCount (program : Module) : Bytes :=
  if program.functions.any (usesData ·.body.code) then
    Section.encode 12 (Leb128.ofNat program.data.length)
  else []

/-- The written form of a module. -/
def encode (program : Module) : Bytes :=
  header ++ listed 1 FuncType.encode program.types ++ listed 2 Import.encode program.imports ++
    listed 3 (fun function => encodeIndex function.type) program.functions ++
    listed 4 TableType.encode program.tables ++ listed 5 MemoryType.encode program.memories ++
    listed 6 Global.encode program.globals ++ listed 7 Export.encode program.exports ++
    (program.start.map fun function => Section.encode 8 (encodeIndex function)).getD [] ++
    listed 9 ElementSegment.encode program.elements ++ program.encodeDataCount ++
    listed 10 (fun function => function.body.encode) program.functions ++
    listed 11 DataSegment.encode program.data ++ program.customs.flatMap encodeCustom

/-- The place of a section among the others; custom sections have none. -/
def rank? : Section → Option Nat
  | .custom _ _ => none
  | .items .types _ _ => some 1
  | .items .imports _ _ => some 2
  | .items .functions _ _ => some 3
  | .items .tables _ _ => some 4
  | .items .memories _ _ => some 5
  | .items .tags _ _ => some 6
  | .items .globals _ _ => some 7
  | .items .exports _ _ => some 8
  | .start _ => some 9
  | .items .elements _ _ => some 10
  | .dataCount _ => some 11
  | .code _ => some 12
  | .items .data _ _ => some 13
  | .unknown _ _ => some 14

/-- Whether the sections that have a place come in order, each at most once. -/
def inOrder (sections : List Section) : Bool :=
  let ranks := sections.filterMap rank?
  (ranks.zip ranks.tail).all fun (first, second) => first < second

/-- The parts of a module gathered section by section. -/
structure Draft where
  content : Module
  functionTypes : List UInt32
  bodies : List Body
  dataCount : Option UInt32

/-- So many items that are all of some bytes. -/
def itemsOf? {α : Type} (item : Decoder α) (count : Nat) (content : Bytes) : Option (List α) :=
  (Decoder.times item count).whole content

/-- The type that an entry defines; types of groups and shared types do not run. -/
def runnableType? (entry : TypeEntry) : Option FuncType :=
  if entry.grouped || entry.shared then none else some entry.type

/-- The draft with one more section; tags and unknown sections are refused. -/
def Draft.add? (draft : Draft) : Section → Option Draft
  | .custom name content =>
    some { draft with
      content := { draft.content with customs := draft.content.customs ++ [(name, content)] } }
  | .items .types count content => do
    let entries ← itemsOf? TypeEntry.decode count content
    let types ← entries.mapM runnableType?
    pure { draft with content := { draft.content with types } }
  | .items .imports count content => do
    let imports ← itemsOf? Import.decode count content
    pure { draft with content := { draft.content with imports } }
  | .items .functions count content => do
    let functionTypes ← itemsOf? Leb128.u32 count content
    pure { draft with functionTypes }
  | .items .tables count content => do
    let tables ← itemsOf? TableType.decode count content
    pure { draft with content := { draft.content with tables } }
  | .items .memories count content => do
    let memories ← itemsOf? MemoryType.decode count content
    pure { draft with content := { draft.content with memories } }
  | .items .globals count content => do
    let globals ← itemsOf? Global.decode count content
    pure { draft with content := { draft.content with globals } }
  | .items .exports count content => do
    let exports ← itemsOf? Export.decode count content
    pure { draft with content := { draft.content with exports } }
  | .start function =>
    some { draft with content := { draft.content with start := some function } }
  | .items .elements count content => do
    let elements ← itemsOf? ElementSegment.decode count content
    pure { draft with content := { draft.content with elements } }
  | .dataCount count => some { draft with dataCount := some count }
  | .code bodies => do
    let bodies ← bodies.mapM Body.decode.whole
    pure { draft with bodies }
  | .items .data count content => do
    let data ← itemsOf? DataSegment.decode count content
    pure { draft with content := { draft.content with data } }
  | .items .tags _ _ | .unknown _ _ => none

/--
A module from its sections: function types and bodies must match in number, and so must the data
segments and their count, which may be left out if no code takes bytes of them.
-/
def ofSections? (sections : List Section) : Option Module := do
  if !inOrder sections then none
  let draft ← sections.foldlM Draft.add? ⟨empty, [], [], none⟩
  if draft.functionTypes.length ≠ draft.bodies.length then none
  if draft.dataCount.any (·.toNat ≠ draft.content.data.length) then none
  if draft.dataCount.isNone && draft.bodies.any (usesData ·.code) then none
  pure { draft.content with
    functions := (draft.functionTypes.zip draft.bodies).map fun (type, body) => ⟨type, body⟩ }

/-- The module that a byte sequence holds. -/
def decode? (bytes : Bytes) : Option Module := do
  let (header, _) ← Header.decode bytes
  if header ≠ ⟨1, .module⟩ then none
  let outline := Outline.ofBytes bytes
  if !outline.isComplete then none
  ofSections? outline.sections

end Module

end TableKernels.Wasm
