import TableKernels.Compiled.Module
import TableKernels.Sha256

/-!
# Inspecting a module

`inspect` reports what a module imports and exports, the limits of its memory and its manifest,
without running it or checking more than it reports. Sections count in the order in which they come
and items add up over repeated sections; the first memory counts unless a later one is imported.
Indices are looked up once the whole module was read: imports first, then exports in order, and the
manifest last.
-/

namespace TableKernels

open Json Wasm Compiled

/-- The names of the types that a function takes and leaves. -/
structure Signature where
  params : List String
  results : List String
deriving DecidableEq

/-- An imported function. -/
structure ImportReport where
  moduleName : String
  name : String
  signature : Signature
deriving DecidableEq

/-- An exported function. -/
structure FunctionReport where
  name : String
  signature : Signature
deriving DecidableEq

/-- An exported global. -/
structure GlobalReport where
  name : String
  type : String
  isMutable : Bool
deriving DecidableEq

/-- The limits of a memory in bytes. -/
structure MemoryBounds where
  min : UInt64
  max : Option UInt64
deriving DecidableEq

/-- What inspection learns about a module. -/
structure ModuleReport where
  sha256 : String
  size : UInt64
  imports : List ImportReport
  functions : List FunctionReport
  globals : List GlobalReport
  memory : Option MemoryBounds
  manifest : Option Manifest
deriving DecidableEq

/-- Signatures in JSON. -/
def Signature.codec : Codec Signature :=
  (Codec.record "Signature"
    (.field "params" (.list .string) .required <|
      .field "results" (.list .string) .required .done) false).map
    (fun (params, results, _) => ⟨params, results⟩)
    (fun signature => (signature.params, signature.results, ()))

/-- Imported functions in JSON. -/
def ImportReport.codec : Codec ImportReport :=
  (Codec.record "ImportInfo"
    (.field "module" .string .required <| .field "name" .string .required <|
      .field "signature" Signature.codec .required .done) false).map
    (fun (moduleName, name, signature, _) => ⟨moduleName, name, signature⟩)
    (fun report => (report.moduleName, report.name, report.signature, ()))

/-- Exported functions in JSON. -/
def FunctionReport.codec : Codec FunctionReport :=
  (Codec.record "ExportFunctionInfo"
    (.field "name" .string .required <|
      .field "signature" Signature.codec .required .done) false).map
    (fun (name, signature, _) => ⟨name, signature⟩)
    (fun report => (report.name, report.signature, ()))

/-- Exported globals in JSON. -/
def GlobalReport.codec : Codec GlobalReport :=
  (Codec.record "ExportGlobalInfo"
    (.field "name" .string .required <| .field "ty" .string .required <|
      .field "mutable" .boolean .required .done) false).map
    (fun (name, type, isMutable, _) => ⟨name, type, isMutable⟩)
    (fun report => (report.name, report.type, report.isMutable, ()))

/-- Bounds of a memory in JSON; one without a maximum leaves it out. -/
def MemoryBounds.codec : Codec MemoryBounds :=
  (Codec.record "MemoryBounds"
    (.field "min" (.uint64 "u64") .required <|
      .field "max" (.optional (.uint64 "u64")) (.omissible none) .done) false).map
    (fun (min, max, _) => ⟨min, max⟩) (fun bounds => (bounds.min, bounds.max, ()))

namespace ModuleReport

/-- Reports in JSON. -/
def codec : Codec ModuleReport :=
  (Codec.record "ModuleInfo"
    (.field "sha256" .string .required <| .field "size" (.uint64 "usize") .required <|
      .field "imports" (.list ImportReport.codec) .required <|
      .field "functions" (.list FunctionReport.codec) .required <|
      .field "globals" (.list GlobalReport.codec) .required <|
      .field "memory" (.optional MemoryBounds.codec) (.omissible none) <|
      .field "manifest" (.optional Manifest.codec) (.omissible none) .done) false).map
    (fun (sha256, size, imports, functions, globals, memory, manifest, _) =>
      ⟨sha256, size, imports, functions, globals, memory, manifest⟩)
    (fun report =>
      (report.sha256, report.size, report.imports, report.functions, report.globals,
        report.memory, report.manifest, ()))

/-- The text of a report, one member per line. -/
def toJson (report : ModuleReport) : String := (codec.write report).prettyText

/-- The first exported function with a name. -/
def function? (report : ModuleReport) (name : String) : Option FunctionReport :=
  report.functions.find? (·.name == name)

/-- The exported global with a name. -/
def global? (report : ModuleReport) (name : String) : Option GlobalReport :=
  report.globals.find? (·.name == name)

end ModuleReport

/-- Why a module cannot be inspected. -/
inductive InspectFault
  | malformed
  | typeIndex (index : UInt32)
  | functionIndex (index : UInt32)
  | globalIndex (index : UInt32)
  | memoryTooLarge (pages : UInt64)
  | manifest (fault : ManifestFault)
deriving DecidableEq

/-- The wording of a fault that is found beyond the bytes. -/
def InspectFault.message? : InspectFault → Option String
  | .malformed | .manifest _ => none
  | .typeIndex index =>
    some ("malformed module: type index " ++ toString index.toNat ++ " out of range")
  | .functionIndex index =>
    some ("malformed module: function index " ++ toString index.toNat ++ " out of range")
  | .globalIndex index =>
    some ("malformed module: global index " ++ toString index.toNat ++ " out of range")
  | .memoryTooLarge pages =>
    some ("malformed module: memory of " ++ toString pages.toNat ++
      " pages overflows a byte count")

/-- The names of the types of a function. -/
def Signature.ofType (type : FuncType) : Signature :=
  ⟨type.params.map ValType.name, type.results.map ValType.name⟩

/-- A number of pages in bytes, which must fit a word. -/
def byteCount (pages : UInt64) : Except InspectFault UInt64 :=
  if pages.toNat * pageSize < 0x10000000000000000 then .ok (UInt64.ofNat (pages.toNat * pageSize))
  else .error (.memoryTooLarge pages)

/-- The limits of a memory type in bytes. -/
def MemoryBounds.ofType (type : MemoryType) : Except InspectFault MemoryBounds := do
  let min ← byteCount type.minPages
  match type.maxPages with
  | none => pure ⟨min, none⟩
  | some pages => pure ⟨min, some (← byteCount pages)⟩

/-- What was read of a module so far. -/
structure Survey where
  types : Array FuncType
  /-- The type indices of the imported functions, with their names. -/
  imports : Array (String × String × UInt32)
  /-- The type indices of all functions, imported ones first. -/
  functions : Array UInt32
  globals : Array GlobalType
  memory : Option MemoryBounds
  exports : Array Export

namespace Survey

/-- Nothing read yet. -/
def empty : Survey := ⟨#[], #[], #[], #[], none, #[]⟩

/-- Adds items one after another; they must take all of the content. -/
def addItems {α : Type} (item : Decoder α) (add : Survey → α → Except InspectFault Survey) :
    Nat → Bytes → Survey → Except InspectFault Survey
  | 0, content, survey => if content.isEmpty then .ok survey else .error .malformed
  | count + 1, content, survey =>
    match item content with
    | none => .error .malformed
    | some (value, rest) =>
      match add survey value with
      | .ok survey => addItems item add count rest survey
      | .error fault => .error fault

/-- Adds an import; an imported memory replaces any other. -/
def addImport (survey : Survey) (item : Import) : Except InspectFault Survey :=
  match item.kind with
  | .func type => .ok { survey with
      functions := survey.functions.push type
      imports := survey.imports.push (item.moduleName, item.name, type) }
  | .global type => .ok { survey with globals := survey.globals.push type }
  | .memory type => do pure { survey with memory := some (← MemoryBounds.ofType type) }
  | .table _ | .tag _ => .ok survey

/-- Adds a memory; only the first counts, but each must have a size. -/
def addMemory (survey : Survey) (type : MemoryType) : Except InspectFault Survey := do
  let bounds ← MemoryBounds.ofType type
  pure { survey with memory := survey.memory.or (some bounds) }

/-- A global, without its value. -/
def decodeGlobal : Decoder GlobalType := do
  let type ← GlobalType.decode
  skipExpression
  return type

/-- Adds a section; sections that the report does not speak of change nothing. -/
def addSection (survey : Survey) : Section → Except InspectFault Survey
  | .items .types count content =>
    addItems TypeEntry.decode (fun survey entry =>
      .ok { survey with types := survey.types.push entry.type }) count content survey
  | .items .imports count content => addItems Import.decode addImport count content survey
  | .items .functions count content =>
    addItems Leb128.u32 (fun survey type =>
      .ok { survey with functions := survey.functions.push type }) count content survey
  | .items .memories count content => addItems MemoryType.decode addMemory count content survey
  | .items .globals count content =>
    addItems decodeGlobal (fun survey type =>
      .ok { survey with globals := survey.globals.push type }) count content survey
  | .items .exports count content =>
    addItems Export.decode (fun survey item =>
      .ok { survey with exports := survey.exports.push item }) count content survey
  | _ => .ok survey

/-- Adds all sections; what follows them must not be garbage. -/
def ofOutline (outline : Outline) : Except InspectFault Survey := do
  let survey ← outline.sections.foldlM addSection empty
  if outline.isComplete then pure survey else throw .malformed

/-- The signature that a type index stands for. -/
def signature (survey : Survey) (index : UInt32) : Except InspectFault Signature :=
  match survey.types[index.toNat]? with
  | some type => .ok (.ofType type)
  | none => .error (.typeIndex index)

/-- The reports of the imported functions. -/
def importReports (survey : Survey) : Except InspectFault (List ImportReport) :=
  survey.imports.toList.mapM fun (moduleName, name, type) => do
    pure ⟨moduleName, name, ← survey.signature type⟩

/-- The reports of the exported functions and globals up to the first index out of range. -/
def exportReports (survey : Survey) : List Export →
    Except InspectFault (List FunctionReport × List GlobalReport)
  | [] => .ok ([], [])
  | item :: rest =>
    match item.kind with
    | .func => do
      match survey.functions[item.index.toNat]? with
      | none => throw (.functionIndex item.index)
      | some type =>
        let report := ⟨item.name, ← survey.signature type⟩
        let (functions, globals) ← survey.exportReports rest
        pure (report :: functions, globals)
    | .global => do
      match survey.globals[item.index.toNat]? with
      | none => throw (.globalIndex item.index)
      | some type =>
        let report := ⟨item.name, type.type.name, type.isMutable⟩
        let (functions, globals) ← survey.exportReports rest
        pure (functions, report :: globals)
    | .table | .memory | .tag => survey.exportReports rest

end Survey

/-- What can be told about a module from its bytes. -/
def inspect (bytes : Bytes) : Except InspectFault ModuleReport := do
  let outline := Outline.ofBytes bytes
  let survey ← Survey.ofOutline outline
  let imports ← survey.importReports
  let (functions, globals) ← survey.exportReports survey.exports.toList
  let manifest ← (Manifest.ofOutline outline).mapError .manifest
  pure {
    sha256 := Sha256.hexDigest bytes
    size := UInt64.ofNat bytes.length
    imports, functions, globals
    memory := survey.memory
    manifest }

end TableKernels
