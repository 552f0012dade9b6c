import TableKernels.Wasm.Frame
import TableKernels.Wasm.Machine

/-!
# Instances

An `Instance` is a module linked to functions of a host, with a store of its own. `instantiate?`
makes one: the module must be valid, every import must be a function that the host supplies with
exactly the declared type, the frames of functions and the memories must be small enough to be had,
each segment must fit where it goes, and the start function must not trap. Exports are looked up by
name and by what they must be.
-/

namespace TableKernels.Wasm

/-- A module that is ready to run. -/
structure Instance (Host : Type) where
  program : Program Host
  /-- The types of all functions, imported ones first. -/
  functionTypes : List FuncType
  exports : List Export
  store : Store Host

/-- The functions that a host supplies, by module name and name. -/
abbrev Linker (Host : Type) : Type := String → String → Option (HostFunction Host)

namespace Module

variable {Host : Type}

/-- The function of the host for an import of the module. -/
def link? (program : Module) (linker : Linker Host) (item : Import) :
    Option (HostFunction Host) :=
  match item.kind with
  | .func type => do
    let function ← linker item.moduleName item.name
    if program.types[type.toNat]? = some function.type then some function else none
  | _ => none

/-- The values that the locals of a body begin with. -/
def firstLocals? (body : Body) : Option (List Word) := do
  let groups ← body.locals.mapM fun (count, type) =>
    (Word.zero? type).map (List.replicate count.toNat)
  pure groups.flatten

/-- A function of the module, ready to run among functions of the given types. -/
def routine? (program : Module) (functions : List FuncType) (function : Function) :
    Option Routine := do
  let type ← program.types[function.type.toNat]?
  let body := function.body
  let localCount := type.params.length + Body.localCount body.locals
  let frame := ⟨program.types, functions, program.fixedGlobals, program.allMemories, localCount,
    type.results.length⟩
  pure ⟨type, ← firstLocals? body, body.code, ← frameSize? frame body.code⟩

/-- The most pages that a memory can have in fact, however it is addressed. -/
def pageSupply : Nat := pageReach false

/-- The memory that a type declares, before any data, if that many pages can be had. -/
def firstMemory? (type : MemoryType) : Option Memory :=
  if type.minPages.toNat ≤ pageSupply then
    some ⟨extendBytes .empty 0 (type.minPages.toNat * pageSize),
      min pageSupply ((type.maxPages.map (·.toNat)).getD pageSupply), type.wide⟩
  else none

/-- The most entries that a table can have in fact, however they are numbered. -/
def entrySupply : Nat := 0xffffffff

/-- The table that a type declares, of entries that are null. -/
def firstTable? (type : TableType) : Option Table :=
  (Word.null? type.entries).map fun word =>
    ⟨Array.replicate type.min.toNat word,
      min entrySupply ((type.max.map (·.toNat)).getD entrySupply), type.wide⟩

/-- The content that is left for code, of a segment that goes somewhere at the start or nowhere. -/
def leftOver {α : Type} (target : Option SegmentTarget) (content : List α) : List α :=
  if target.isSome then [] else content

/-- The segments that a module begins with. Those that go somewhere at the start are used up. -/
def firstSegments? (program : Module) : Option Segments := do
  let elements ← program.elements.mapM fun segment =>
    segment.words?.map (leftOver segment.target)
  pure ⟨(program.data.map fun segment => leftOver segment.target segment.content).toArray,
    elements.toArray⟩

/-- The store that a module begins with, before its segments are put in their places. -/
def firstStore? {Host : Type} (program : Module) (host : Host) : Option (Store Host) := do
  let memories ← program.memories.mapM firstMemory?
  let globals ← program.globals.mapM fun item => item.value.value?
  let tables ← program.tables.mapM firstTable?
  let segments ← program.firstSegments?
  pure ⟨memories.head?.getD .none, memories.tail.toArray, globals.toArray, tables.toArray,
    segments, host⟩

/-- The store after a segment of references, which must fit where it goes. -/
def placeElements? {Host : Type} (store : Store Host) (segment : ElementSegment) :
    Option (Store Host) := do
  match segment.target with
  | none => pure store
  | some target =>
    let base ← (← target.offset.value?).address?
    let words ← segment.words?
    if base + words.length ≤ (store.tableAt target.index).entries.size then
      pure (store.changeEntries target.index fun entries => Table.overwriteFrom entries base words)
    else none

/-- The store after a data segment, which must fit where it goes. -/
def placeData? {Host : Type} (store : Store Host) (segment : DataSegment) :
    Option (Store Host) := do
  match segment.target with
  | none => pure store
  | some target =>
    let base ← (← target.offset.value?).address?
    if base + segment.content.length ≤ (store.memoryAt target.index).size then
      pure (store.changeBytes target.index fun bytes => overwrite bytes base segment.content)
    else none

/-- The instance of a valid module before its start function runs. -/
def load? (program : Module) (linker : Linker Host) (host : Host) : Option (Instance Host) := do
  let functionTypes ← program.functionTypes?
  let imports ← program.imports.mapM (program.link? linker)
  let routines ← program.functions.mapM (program.routine? functionTypes)
  let filled ← program.elements.foldlM placeElements? (← program.firstStore? host)
  let store ← program.data.foldlM placeData? filled
  pure ⟨⟨imports.toArray, routines.toArray, program.types⟩, functionTypes, program.exports, store⟩

/-- The instance of a module over a host, after its start function. -/
def instantiate? (program : Module) (linker : Linker Host) (host : Host) :
    Option (Instance Host) := do
  if !program.isValid then none
  let loaded ← program.load? linker host
  match program.start with
  | none => pure loaded
  | some index =>
    match loaded.program.invoke index [] loaded.store with
    | .done _ store => pure { loaded with store }
    | .trap _ _ | .unfinished => none

end Module

namespace Instance

variable {Host : Type}

/-- The export with a name. -/
def export? (live : Instance Host) (name : String) : Option Export :=
  live.exports.find? (·.name == name)

/-- The index of the exported function with a name and a type. -/
def function? (live : Instance Host) (name : String) (type : FuncType) : Option UInt32 :=
  match live.export? name with
  | some ⟨_, .func, index⟩ =>
    if live.functionTypes[index.toNat]? = some type then some index else none
  | _ => none

/-- The index of the exported global with a name. -/
def global? (live : Instance Host) (name : String) : Option UInt32 :=
  match live.export? name with
  | some ⟨_, .global, index⟩ => some index
  | _ => none

/-- The index of the exported memory with a name. -/
def memory? (live : Instance Host) (name : String) : Option UInt32 :=
  match live.export? name with
  | some ⟨_, .memory, index⟩ => some index
  | _ => none

/-- The instance with another state of the host. -/
def withHost (live : Instance Host) (host : Host) : Instance Host :=
  { live with store := { live.store with host } }

end Instance

end TableKernels.Wasm
