import TableKernels.Proofs.Configured
import TableKernels.Proofs.Survey
import TableKernels.Proofs.Wasm.Loading
import TableKernels.Proofs.Wasm.Reading.Skipping

/-!
# Inspection and reading

Inspection looks at the sections of a module on its own: it passes over the values of globals,
leaves code alone and adds up items as they come. Reading takes the same sections in their order,
each at most once, and keeps what they hold. Where both succeed, inspection has listed what reading
kept, so that an index means the same to both.
-/

namespace TableKernels

open Wasm

/-! ## Imports by kind -/

namespace Wasm.Import

/-- The names of an imported function, with the index of its type. -/
def function? (item : Import) : Option (String × String × UInt32) :=
  match item.kind with
  | .func type => some (item.moduleName, item.name, type)
  | _ => none

/-- The global that an import asks for. -/
def global? (item : Import) : Option GlobalType :=
  match item.kind with
  | .global type => some type
  | _ => none

/-- The memory that an import asks for. -/
def memory? (item : Import) : Option MemoryType :=
  match item.kind with
  | .memory type => some type
  | _ => none

end Wasm.Import

theorem Wasm.Module.globalTypes_eq (program : Module) :
    program.globalTypes =
      program.imports.filterMap Import.global? ++ program.globals.map (·.type) := rfl

theorem Wasm.Module.importedMemories_eq (program : Module) :
    program.importedMemories = program.imports.filterMap Import.memory? := rfl

/-- Of the sections from some place on nothing was read yet. -/
structure Wasm.Module.Draft.Awaits (draft : Module.Draft) (place : ℕ) : Prop where
  types : place ≤ 1 → draft.content.types = []
  imports : place ≤ 2 → draft.content.imports = []
  functions : place ≤ 3 → draft.functionTypes = []
  memories : place ≤ 5 → draft.content.memories = []
  globals : place ≤ 7 → draft.content.globals = []
  exports : place ≤ 8 → draft.content.exports = []

theorem Wasm.Module.Draft.Awaits.mono {draft : Module.Draft} {place later : ℕ}
    (awaits : draft.Awaits place) (le : place ≤ later) : draft.Awaits later :=
  ⟨fun before => awaits.types (le.trans before), fun before => awaits.imports (le.trans before),
    fun before => awaits.functions (le.trans before),
    fun before => awaits.memories (le.trans before),
    fun before => awaits.globals (le.trans before), fun before => awaits.exports (le.trans before)⟩

theorem Wasm.Module.Draft.Awaits.congr {draft draft' : Module.Draft} {place : ℕ}
    (awaits : draft.Awaits place)
    (types : draft'.content.types = draft.content.types)
    (imports : draft'.content.imports = draft.content.imports)
    (functions : draft'.functionTypes = draft.functionTypes)
    (memories : draft'.content.memories = draft.content.memories)
    (globals : draft'.content.globals = draft.content.globals)
    (exports : draft'.content.exports = draft.content.exports) : draft'.Awaits place :=
  ⟨types ▸ awaits.types, imports ▸ awaits.imports, functions ▸ awaits.functions,
    memories ▸ awaits.memories, globals ▸ awaits.globals, exports ▸ awaits.exports⟩

/-- A section changes what is read at its place, and the others are still awaited. -/
theorem Wasm.Module.Draft.Awaits.next {draft draft' : Module.Draft} {place : ℕ}
    (awaits : draft.Awaits place)
    (types : place < 1 → draft'.content.types = draft.content.types)
    (imports : place < 2 → draft'.content.imports = draft.content.imports)
    (functions : place < 3 → draft'.functionTypes = draft.functionTypes)
    (memories : place < 5 → draft'.content.memories = draft.content.memories)
    (globals : place < 7 → draft'.content.globals = draft.content.globals)
    (exports : place < 8 → draft'.content.exports = draft.content.exports) :
    draft'.Awaits (place + 1) :=
  ⟨fun before => (types before).trans (awaits.types (Nat.le_of_succ_le before)),
    fun before => (imports before).trans (awaits.imports (Nat.le_of_succ_le before)),
    fun before => (functions before).trans (awaits.functions (Nat.le_of_succ_le before)),
    fun before => (memories before).trans (awaits.memories (Nat.le_of_succ_le before)),
    fun before => (globals before).trans (awaits.globals (Nat.le_of_succ_le before)),
    fun before => (exports before).trans (awaits.exports (Nat.le_of_succ_le before))⟩

/-- What is read at its place is not read again later. -/
theorem Wasm.Module.Draft.Awaits.add {draft draft' : Module.Draft} {place : ℕ} {part : Section}
    (awaits : draft.Awaits place) (ranked : Module.rank? part = some place)
    (drafted : draft.add? part = some draft') : draft'.Awaits (place + 1) := by
  cases part with
  | custom name content => cases ranked
  | unknown code content => cases drafted
  | start | dataCount =>
    cases drafted
    refine awaits.next ?_ ?_ ?_ ?_ ?_ ?_ <;> exact fun _ => rfl
  | code bodies =>
    obtain ⟨_, _, same⟩ := Option.bind_eq_some_iff.mp drafted
    cases same
    refine awaits.next ?_ ?_ ?_ ?_ ?_ ?_ <;> exact fun _ => rfl
  | items listing count content =>
    cases listing with
    | tags => cases drafted
    | types =>
      obtain ⟨_, _, drafted⟩ := Option.bind_eq_some_iff.mp drafted
      obtain ⟨_, _, same⟩ := Option.bind_eq_some_iff.mp drafted
      cases ranked
      cases same
      refine awaits.next ?_ ?_ ?_ ?_ ?_ ?_ <;> intro before <;> first | omega | rfl
    | imports | functions | tables | memories | globals | exports | elements | data =>
      obtain ⟨_, _, same⟩ := Option.bind_eq_some_iff.mp drafted
      cases ranked
      cases same
      refine awaits.next ?_ ?_ ?_ ?_ ?_ ?_ <;> intro before <;> first | omega | rfl

namespace Survey

/-! ## Items -/

section Items

variable {α β : Type} {coarse : Decoder α} {fine : Decoder β} {view : β → α}
  {count : ℕ} {content : Bytes} {items : List β}

end Items

variable {survey survey' : Survey}

/-- A survey after some imports. -/
structure AddsImports (items : List Import) (before after : Survey) : Prop where
  types : after.types = before.types
  imports : after.imports.toList = before.imports.toList ++ items.filterMap Import.function?
  functions : after.functions.toList =
    before.functions.toList ++ (items.filterMap Import.function?).map (·.2.2)
  globals : after.globals.toList = before.globals.toList ++ items.filterMap Import.global?
  exports : after.exports = before.exports
  memory : items.filterMap Import.memory? = [] → after.memory = before.memory

theorem AddsImports.trans {first second third : Survey} {items items' : List Import}
    (before : first.AddsImports items second) (after : second.AddsImports items' third) :
    first.AddsImports (items ++ items') third where
  types := after.types.trans before.types
  imports := by rw [after.imports, before.imports, List.filterMap_append, List.append_assoc]
  functions := by
    rw [after.functions, before.functions, List.filterMap_append, List.map_append,
      List.append_assoc]
  globals := by rw [after.globals, before.globals, List.filterMap_append, List.append_assoc]
  exports := after.exports.trans before.exports
  memory none := by
    rw [List.filterMap_append, List.append_eq_nil_iff] at none
    exact (after.memory none.2).trans (before.memory none.1)

/-- The limits of the first of some memories. -/
def firstBounds? (memories : List MemoryType) : Option MemoryBounds :=
  memories.head?.bind fun type => (MemoryBounds.ofType type).toOption

/-- A survey lists the parts of a module, whose functions have types of the given indices. -/
structure Lists (survey : Survey) (content : Module) (functionTypes : List UInt32) : Prop where
  types : survey.types.toList = content.types
  imports : survey.imports.toList = content.imports.filterMap Import.function?
  functions : survey.functions.toList =
    (content.imports.filterMap Import.function?).map (·.2.2) ++ functionTypes
  globals : survey.globals.toList = content.globalTypes
  exports : survey.exports.toList = content.exports
  memory : content.importedMemories = [] → survey.memory = firstBounds? content.memories

variable {draft draft' : Module.Draft} {place : ℕ} {part : Section}

/-- Sections that hold none of what is listed change nothing. -/
theorem Lists.congr (lists : survey.Lists draft.content draft.functionTypes)
    (draft' : Module.Draft)
    (types : draft'.content.types = draft.content.types)
    (imports : draft'.content.imports = draft.content.imports)
    (functions : draft'.functionTypes = draft.functionTypes)
    (memories : draft'.content.memories = draft.content.memories)
    (globals : draft'.content.globals = draft.content.globals)
    (exports : draft'.content.exports = draft.content.exports) :
    survey.Lists draft'.content draft'.functionTypes := by
  refine ⟨?_, ?_, ?_, ?_, ?_, fun none => ?_⟩
  · rw [lists.types, types]
  · rw [lists.imports, imports]
  · rw [lists.functions, imports, functions]
  · rw [lists.globals, Module.globalTypes_eq, Module.globalTypes_eq, imports, globals]
  · rw [lists.exports, exports]
  · rw [Module.importedMemories_eq, imports] at none
    rw [lists.memory none, memories]

end Survey

end TableKernels
