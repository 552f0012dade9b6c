import TableKernels.Wasm.Text.Assembly
import TableKernels.Wasm.Text.Custom
import TableKernels.Wasm.Text.Storage

/-!
# Fields of the text of a module

A module is a row of fields, each a list that begins with its kind. References may point forward, so
the names of all fields and all types come first; then each field adds its part to the module. What
a module imports comes before what it defines.
-/

namespace TableKernels.Wasm.Text

/-- What may follow the name of a field: names to export it by, and where it is imported from. -/
structure Heading where
  exports : List String
  source : Option (String × String)

/-- A field of a module: its kind and what follows it. -/
abbrev Field : Type := String × List Tree

namespace Field

/-- The field that a tree is, if it is not a custom section. -/
def ofTree? : Tree → Option (Option Field)
  | .list (.word kind :: items) => some (some (kind, items))
  | .list (.note kind :: items) => if isCustomSection kind items then some none else none
  | _ => none

/-- What a field declares to exist: an import declares what it brings in. -/
def declared : Field → Field
  | ("import", items) =>
    match items with
    | [.string _, .string _, .list (.word kind :: items)] => (kind, items)
    | _ => ("import", [])
  | field => field

/-- What kind of thing a field declares, and under which name. -/
def thing (field : Field) : String × Option String :=
  let (kind, items) := field.declared
  (kind, (Parse.name? items).bind (·.1))

/-- The type of a function as it is defined; a type may be marked as one without subtypes. -/
def functionType? : Tree → Option FuncType
  | .list (.word "func" :: items) => (Parse.whole Signature.parse items).map (·.type)
  | .list [.word "sub", .word "final", .list (.word "func" :: items)] =>
    (Parse.whole Signature.parse items).map (·.type)
  | _ => none

/-- The types of a module after those that a field defines. -/
def addType? (types : List FuncType) : Field → Option (List FuncType)
  | ("type", items) => do
    let (_, items) ← Parse.titled items
    match items with
    | [tree] => pure (types ++ [← functionType? tree])
    | _ => none
  | _ => some types

end Field

namespace Parse

/-- The heading of a field, with its name and title. -/
def heading : Parse Heading := do
  let _ ← titled
  let exports ← given ((← lists "export").mapM (whole text))
  match ← listOf? "import" with
  | none => return ⟨exports, none⟩
  | some items => return ⟨exports, some (← given (whole source items))⟩
where
  /-- Where a field is imported from. -/
  source : Parse (String × String) := do return (← text, ← text)

end Parse

namespace Field

/-- The names of the locals of a function, its parameters first, and their types but for those. -/
def locals (types : List FuncType) (use : TypeUse) : Parse (NameList × List ValType) := do
  let locals ← Parse.declarations "local"
  let names := use.paramNames types ++ locals.map (·.1)
  Parse.require (names.filterMap id).Nodup
  return (names, locals.map (·.2))

/-- The types of a module after those that a function and its code use without defining them. -/
def addUse? (names : Names) (types : List FuncType) (field : Field) : Option (List FuncType) := do
  match field.declared with
  | ("func", items) => do
    let (_, items) ← Parse.heading items
    let (use, items) ← TypeUse.parse names items
    let types := use.extend types
    let ((localNames, _), items) ← locals types use items
    let code ← Written.flatten? ⟨names, types, localNames⟩ items
    pure (code.foldl Written.extend types)
  | _ => pure types

/-- What the expressions of a module may refer to, outside of functions. -/
def scope (names : Names) (assembly : Assembly) : CodeScope := ⟨names, assembly.types, []⟩

/-- One more import, which may not follow a definition. -/
def addImport (assembly : Assembly) (source : String × String) (kind : ImportKind) :
    Parse Assembly := do
  Parse.finish
  Parse.require assembly.mayImport
  return assembly.addImport source kind

/-- The written form of the constant zero, as an address. -/
def zeroAddress (wide : Bool) : Bytes :=
  (Constant.ofWord (if wide then .i64 0 else .i32 0)).encode

/-- The module with one more function, defined or imported in place. -/
def function (names : Names) (assembly : Assembly) : Parse Assembly := do
  let heading ← Parse.heading
  let use ← TypeUse.parse names
  let type ← Parse.given (use.resolve? assembly.types)
  let exported := assembly.addExports .func heading.exports
  match heading.source with
  | some source => addImport exported source (.func type)
  | none =>
    let (localNames, localTypes) ← locals assembly.types use
    let code ← Parse.given (Written.flatten? ⟨names, assembly.types, localNames⟩ (← get))
    set ([] : List Tree)
    let bytes ← Parse.given (Written.linkAll? assembly.types code)
    return exported.addFunction type (Body.encodeWith (localTypes.map (1, ·)) bytes)
      (code.any (·.takesData))

/-- A table; its references may stand in place of its limits. -/
def table (names : Names) (assembly : Assembly) : Parse Assembly := do
  let heading ← Parse.heading
  let exported := assembly.addExports .table heading.exports
  match heading.source with
  | some source => addImport exported source (.table (← Parse.tableType))
  | none =>
    let before ← get
    let wide ← Parse.addressing
    match (← get).head?.bind parseRefType with
    | none =>
      set before
      return exported.addTable (← Parse.tableType)
    | some _ =>
      let entries ← Parse.refType
      let items ← Parse.given (← Parse.listOf? "elem")
      let references ← Parse.given
        (Parse.whole (References.parseInline (scope names assembly) entries) items)
      let size := UInt64.ofNat references.count
      let destination :=
        Destination.active (some (assembly.nextIndex .table)) (zeroAddress wide)
      return (exported.addTable ⟨entries, size, size, wide, false⟩).addElements
        (destination.encodeElements references)

/-- A memory; its bytes may stand in place of its limits. -/
def memory (assembly : Assembly) : Parse Assembly := do
  let heading ← Parse.heading
  let exported := assembly.addExports .memory heading.exports
  match heading.source with
  | some source => addImport exported source (.memory (← Parse.memoryType))
  | none =>
    let before ← get
    let wide ← Parse.addressing
    match ← Parse.listOf? "data" with
    | none =>
      set before
      return exported.addMemory (← Parse.memoryType)
    | some items =>
      let content ← Parse.given (Parse.whole Parse.content items)
      let pages := UInt64.ofNat ((content.length + 0xffff) / 0x10000)
      let destination :=
        Destination.active (some (assembly.nextIndex .memory)) (zeroAddress wide)
      return (exported.addMemory ⟨pages, pages, wide, false, none⟩).addData
        (destination.encodeData content)

/-- The module with one more global, defined or imported in place. -/
def global (names : Names) (assembly : Assembly) : Parse Assembly := do
  let heading ← Parse.heading
  let exported := assembly.addExports .global heading.exports
  let type ← Parse.globalType
  match heading.source with
  | some source => addImport exported source (.global type)
  | none =>
    let value ← Parse.given (parseCode (scope names assembly) (← get))
    set ([] : List Tree)
    return exported.addGlobal (type.encode ++ value)

/-- What an import of a kind brings in. -/
def imported (names : Names) (assembly : Assembly) (kind : String) : Parse ImportKind := do
  match kind with
  | "func" =>
    let _ ← Parse.titled
    return .func (← Parse.given ((← TypeUse.parse names).resolve? assembly.types))
  | _ =>
    let _ ← Parse.name?
    match kind with
    | "table" => return .table (← Parse.tableType)
    | "memory" => return .memory (← Parse.memoryType)
    | "global" => return .global (← Parse.globalType)
    | _ => Parse.refuse

/-- An import, which declares what it brings in. -/
def importField (names : Names) (assembly : Assembly) : Parse Assembly := do
  let source := (← Parse.text, ← Parse.text)
  match ← Parse.next with
  | .list (.word kind :: items) =>
    addImport assembly source (← Parse.given (Parse.whole (imported names assembly kind) items))
  | _ => Parse.refuse

/-- The module with one more export. -/
def exportField (names : Names) (assembly : Assembly) : Parse Assembly := do
  let name ← Parse.text
  let (kind, list, tree) ← match ← Parse.next with
    | .list [.word "func", tree] => pure (ExternKind.func, names.functions, tree)
    | .list [.word "table", tree] => pure (.table, names.tables, tree)
    | .list [.word "memory", tree] => pure (.memory, names.memories, tree)
    | .list [.word "global", tree] => pure (.global, names.globals, tree)
    | _ => Parse.refuse
  let index ← Parse.given (Parse.whole (Parse.reference list) [tree])
  return assembly.addExport ⟨name, kind, index⟩

/-- The start function, of which there is at most one. -/
def start (names : Names) (assembly : Assembly) : Parse Assembly := do
  Parse.require assembly.start.isNone
  return { assembly with start := some (← Parse.reference names.functions) }

/-- A segment of bytes, which goes nowhere if it begins with a string or is empty. -/
def data (names : Names) (assembly : Assembly) : Parse Assembly := do
  let _ ← Parse.titled
  let destination ← match (← get).head? with
    | none | some (.string _) => pure .passive
    | some _ => Destination.parseMemory (scope names assembly)
  return assembly.addData (destination.encodeData (← Parse.content))

/-- Whether a segment of references says where it goes: by a number, or in a list. -/
def goesSomewhere : Tree → Bool
  | .list items => (parseRefType (.list items)).isNone
  | .word letters => (Numeral.natural? letters.toList).isSome
  | _ => false

/-- The module with one more segment of references. -/
def elements (names : Names) (assembly : Assembly) : Parse Assembly := do
  let _ ← Parse.titled
  let scope := scope names assembly
  let (destination, bare) ← if ← Parse.keyword "declare" then pure (.declared, false)
    else if (← get).head?.any goesSomewhere then Destination.parseTable scope
    else pure (.passive, false)
  let references ← References.parse scope bare
  return assembly.addElements (destination.encodeElements references)

/-- The module with one more field. -/
def add? (names : Names) (assembly : Assembly) : Field → Option Assembly
  | (kind, items) =>
    match kind with
    | "type" => some assembly
    | "import" => Parse.whole (importField names assembly) items
    | "func" => Parse.whole (function names assembly) items
    | "table" => Parse.whole (table names assembly) items
    | "memory" => Parse.whole (memory assembly) items
    | "global" => Parse.whole (global names assembly) items
    | "export" => Parse.whole (exportField names assembly) items
    | "start" => Parse.whole (start names assembly) items
    | "elem" => Parse.whole (elements names assembly) items
    | "data" => Parse.whole (data names assembly) items
    | _ => none

end Field

/-- What fields in a row add up to. -/
def assemblyOf? (trees : List Tree) : Option Assembly := do
  let fields := (← trees.mapM Field.ofTree?).filterMap id
  let names := Names.ofList (fields.map Field.thing)
  if !names.areDistinct then none
  let defined ← fields.foldlM Field.addType? []
  let types ← fields.foldlM (Field.addUse? names) defined
  fields.foldlM (Field.add? names) (.ofTypes types)

end TableKernels.Wasm.Text
