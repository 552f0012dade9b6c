import TableKernels.Wasm.Module
import TableKernels.Wasm.Word

/-!
# Well-typed modules

A module may run only if its indices exist, its limits are consistent, its export names are distinct
and each body leaves exactly what its type promises. `checkCode?` follows the types on the operand
stack. Code after an instruction that never falls through may take any operand it likes, which
`Operands.anything` records.
-/

namespace TableKernels.Wasm

/-- The types of the operands of the innermost block, the latest first. -/
structure Operands where
  /-- The type of an operand that nothing has left is not known. -/
  types : List (Option ValType)
  /-- Below the types listed there may be any others. -/
  anything : Bool
deriving DecidableEq

namespace Operands

/-- No operand. -/
def none : Operands := ⟨[], false⟩

/-- Any operands at all. -/
def any : Operands := ⟨[], true⟩

/-- The operands after one more. -/
def push (operands : Operands) (type : ValType) : Operands :=
  { operands with types := some type :: operands.types }

/-- The operands without the latest, and its type if it is known. -/
def popAny? (operands : Operands) : Option (Option ValType × Operands) :=
  match operands.types with
  | latest :: types => some (latest, { operands with types })
  | [] => if operands.anything then some (Option.none, operands) else Option.none

/-- The operands without the latest, which must have the given type. -/
def pop? (operands : Operands) (type : ValType) : Option Operands := do
  let (latest, operands) ← operands.popAny?
  if latest.all (· = type) then some operands else Option.none

/-- The operands without the latest ones, given in the order of pushing. -/
def popAll? (operands : Operands) (types : List ValType) : Option Operands :=
  types.reverse.foldlM pop? operands

/-- The operands after several more, given in the order of pushing. -/
def pushAll (operands : Operands) (types : List ValType) : Operands :=
  types.foldl push operands

/-- The operands after some are taken and others left. -/
def exchange? (operands : Operands) (taken left : List ValType) : Option Operands :=
  (operands.popAll? taken).map (·.pushAll left)

/-- Whether the operands are exactly the given ones, in the order of pushing. -/
def areExactly (operands : Operands) (types : List ValType) : Bool :=
  match operands.popAll? types with
  | some rest => rest.types.isEmpty
  | Option.none => false

/-- The operands after one of two numbers is chosen. -/
def choose? (operands : Operands) : Option Operands := do
  let (second, operands) ← (← operands.pop? .i32).popAny?
  let (first, operands) ← operands.popAny?
  let chosen := first.or second
  if chosen.all isNumber ∧ second.all (some · = chosen) then
    some { operands with types := chosen :: operands.types }
  else Option.none
where
  /-- Whether a type is that of numbers. -/
  isNumber : ValType → Bool
    | .ref _ => false
    | _ => true

/-- The operands after a reference is looked at. -/
def test? (operands : Operands) : Option Operands := do
  let (type, operands) ← operands.popAny?
  if type.all isReference then some (operands.push .i32) else Option.none
where
  /-- Whether a type is that of references. -/
  isReference : ValType → Bool
    | .ref _ => true
    | _ => false

end Operands

/-- What code may refer to. -/
structure Scope where
  types : List FuncType
  functions : List FuncType
  globals : List GlobalType
  memories : List MemoryType
  tables : List TableType
  /-- What the segments of references hold. -/
  elements : List RefType
  /-- The number of segments of bytes. -/
  dataCount : Nat
  /-- The functions to which code may take references. -/
  references : List UInt32
  locals : List ValType
  results : List ValType

/-- The type of an amount that counts in two things: it is wide only if both are. -/
def amountType (first second : ValType) : ValType :=
  if first = .i32 then .i32 else second

namespace Scope

/-- The operands after a plain instruction. -/
def checkOp? (scope : Scope) (operands : Operands) : Op → Option Operands
  | .nop => some operands
  | .drop => operands.popAny?.map (·.2)
  | .select none => operands.choose?
  | .select (some type) =>
    if type.isRunnable then operands.exchange? [type, type, .i32] [type] else none
  | .localGet index => do operands.exchange? [] [← scope.locals[index.toNat]?]
  | .localSet index => do operands.exchange? [← scope.locals[index.toNat]?] []
  | .localTee index => do
    let type ← scope.locals[index.toNat]?
    operands.exchange? [type] [type]
  | .globalGet index => do operands.exchange? [] [(← scope.globals[index.toNat]?).type]
  | .globalSet index => do
    let type ← scope.globals[index.toNat]?
    if type.isMutable then operands.exchange? [type.type] [] else none
  | .tableGet table => do
    let type ← scope.tables[table.toNat]?
    operands.exchange? [type.indexType] [.ref type.entries]
  | .tableSet table => do
    let type ← scope.tables[table.toNat]?
    operands.exchange? [type.indexType, .ref type.entries] []
  | .load form place => do
    access place form.sizeLog (← address place.memory) [] [form.type]
  | .save form place => do
    access place form.sizeLog (← address place.memory) [form.type] []
  | .memorySize memory => do operands.exchange? [] [← address memory]
  | .memoryGrow memory => do operands.exchange? [← address memory] [← address memory]
  | .memoryInit segment memory => do
    if segment.toNat < scope.dataCount then operands.exchange? [← address memory, .i32, .i32] []
    else none
  | .dataDrop segment => if segment.toNat < scope.dataCount then some operands else none
  | .memoryCopy target source => do
    let target ← address target
    let source ← address source
    operands.exchange? [target, source, amountType target source] []
  | .memoryFill memory => do
    operands.exchange? [← address memory, .i32, ← address memory] []
  | .tableInit segment table => do
    let type ← scope.tables[table.toNat]?
    if scope.elements[segment.toNat]? = some type.entries then
      operands.exchange? [type.indexType, .i32, .i32] []
    else none
  | .elemDrop segment =>
    if segment.toNat < scope.elements.length then some operands else none
  | .tableCopy target source => do
    let target ← scope.tables[target.toNat]?
    let source ← scope.tables[source.toNat]?
    if target.entries = source.entries then
      operands.exchange?
        [target.indexType, source.indexType, amountType target.indexType source.indexType] []
    else none
  | .tableGrow table => do
    let type ← scope.tables[table.toNat]?
    operands.exchange? [.ref type.entries, type.indexType] [type.indexType]
  | .tableSize table => do
    operands.exchange? [] [(← scope.tables[table.toNat]?).indexType]
  | .tableFill table => do
    let type ← scope.tables[table.toNat]?
    operands.exchange? [type.indexType, .ref type.entries, type.indexType] []
  | .i32Const _ => operands.exchange? [] [.i32]
  | .i64Const _ => operands.exchange? [] [.i64]
  | .f32Const _ => operands.exchange? [] [.f32]
  | .f64Const _ => operands.exchange? [] [.f64]
  | .refNull type => if type ≠ .other then operands.exchange? [] [.ref type] else none
  | .refIsNull => operands.test?
  | .refFunc function =>
    if function.toNat < scope.functions.length ∧ scope.references.contains function then
      operands.exchange? [] [.ref .func]
    else none
  | .numeric operator => operands.exchange? operator.operands [operator.result]
where
  /-- The type of the addresses of a memory, which must exist. -/
  address (memory : UInt32) : Option ValType := do
    return (← scope.memories[memory.toNat]?).addressType
  /-- An access with an alignment up to the natural one and an offset that is an address. -/
  access (place : MemoryPlace) (natural : UInt32) (address : ValType)
      (taken left : List ValType) : Option Operands :=
    if place.alignment ≤ natural ∧ (address = .i64 ∨ place.offset ≤ 0xffffffff) then
      operands.exchange? (address :: taken) left
    else none

/-- The type of the functions called through a table, and that of the numbers of its entries. -/
def callee? (scope : Scope) (type table : UInt32) : Option (FuncType × ValType) := do
  let found ← scope.tables[table.toNat]?
  if found.entries = .func then pure (← scope.types[type.toNat]?, found.indexType) else none

/-- What may be left behind a jump that takes operands of some types: anything at all. -/
def leave? (operands : Operands) (types : List ValType) : Option Operands :=
  (operands.popAll? types).map fun _ => .any

/-- What may be left behind a call in place of the one that is running. -/
def returnCall? (scope : Scope) (operands : Operands) (type : FuncType) : Option Operands :=
  if type.results = scope.results then leave? operands type.params else none

/-- Whether a jump may choose among several labels, all with as many operands as the last. -/
def mayChoose (operands : Operands) (labels : List (List ValType)) (targets : List UInt32)
    (count : Nat) : Bool :=
  targets.all fun target =>
    (labels[target.toNat]?).any fun types =>
      types.length = count && (operands.popAll? types).isSome

mutual

/--
The operands after an instruction. The labels are what the jumps out of the blocks around it take,
the innermost first; the last is that of the function.
-/
def checkInstr? (scope : Scope) (labels : List (List ValType)) (operands : Operands) :
    Instr → Option Operands
  | .op op => scope.checkOp? operands op
  | .unreachable => some .any
  | .blockOf type body => do
    let type ← type.type? scope.types
    if checkBody scope (type.results :: labels) type body then
      operands.exchange? type.params type.results
    else none
  -- A jump to a loop leads to its beginning, so it takes what the loop takes.
  | .loopOf type body => do
    let type ← type.type? scope.types
    if checkBody scope (type.params :: labels) type body then
      operands.exchange? type.params type.results
    else none
  | .branch type body other => do
    let type ← type.type? scope.types
    if checkBody scope (type.results :: labels) type body &&
        checkBody scope (type.results :: labels) type other then
      (← operands.pop? .i32).exchange? type.params type.results
    else none
  | .br depth => do leave? operands (← labels[depth.toNat]?)
  | .brIf depth => do
    let types ← labels[depth.toNat]?
    (← operands.pop? .i32).exchange? types types
  | .brTable targets default => do
    let types ← labels[default.toNat]?
    let operands ← operands.pop? .i32
    if mayChoose operands labels targets types.length then leave? operands types else none
  | .ret => leave? operands scope.results
  | .call function => do
    let type ← scope.functions[function.toNat]?
    operands.exchange? type.params type.results
  | .callIndirect type table => do
    let (type, indexType) ← scope.callee? type table
    (← operands.pop? indexType).exchange? type.params type.results
  | .returnCall function => do
    scope.returnCall? operands (← scope.functions[function.toNat]?)
  | .returnCallIndirect type table => do
    let (type, indexType) ← scope.callee? type table
    scope.returnCall? (← operands.pop? indexType) type

/-- Whether the body of a block leaves what it must, given what the block takes. -/
def checkBody (scope : Scope) (labels : List (List ValType)) (type : FuncType)
    (body : List Instr) : Bool :=
  match checkCode? scope labels (Operands.none.pushAll type.params) body with
  | some inner => inner.areExactly type.results
  | none => false

/-- The operands after instructions in a row. -/
def checkCode? (scope : Scope) (labels : List (List ValType)) (operands : Operands) :
    List Instr → Option Operands
  | [] => some operands
  | instr :: code =>
    match checkInstr? scope labels operands instr with
    | some operands => checkCode? scope labels operands code
    | none => none

end

/-- Whether code leaves the results of its function. -/
def checkFunction (scope : Scope) (code : List Instr) : Bool :=
  scope.checkBody [scope.results] ⟨[], scope.results⟩ code

end Scope

namespace Module

/-- The types of the imported functions; an unknown type index spoils them all. -/
def importedTypes? (program : Module) : Option (List FuncType) :=
  program.imports.filterMapM fun item =>
    match item.kind with
    | .func type => (program.types[type.toNat]?).map some
    | _ => some none

/-- The types of the functions that the module defines. -/
def definedTypes? (program : Module) : Option (List FuncType) :=
  program.functions.mapM fun function => program.types[function.type.toNat]?

/-- The types of all functions, imported ones first. -/
def functionTypes? (program : Module) : Option (List FuncType) := do
  return (← program.importedTypes?) ++ (← program.definedTypes?)

/-- The types of the locals of a function, its parameters first. -/
def localTypes (type : FuncType) (body : Body) : List ValType :=
  type.params ++ body.locals.flatMap fun (count, type) => List.replicate count.toNat type

/-- The globals that the module imports. -/
def importedGlobals (program : Module) : List GlobalType :=
  program.imports.filterMap fun item =>
    match item.kind with
    | .global type => some type
    | _ => none

/-- The types of all globals, imported ones first. -/
def globalTypes (program : Module) : List GlobalType :=
  program.importedGlobals ++ program.globals.map (·.type)

/-- The memories that the module imports. -/
def importedMemories (program : Module) : List MemoryType :=
  program.imports.filterMap fun item =>
    match item.kind with
    | .memory type => some type
    | _ => none

/-- All memories, imported ones first. -/
def allMemories (program : Module) : List MemoryType :=
  program.importedMemories ++ program.memories

/-- The tables that the module imports. -/
def importedTables (program : Module) : List TableType :=
  program.imports.filterMap fun item =>
    match item.kind with
    | .table type => some type
    | _ => none

/-- All tables, imported ones first. -/
def allTables (program : Module) : List TableType :=
  program.importedTables ++ program.tables

/-- The most tables, and the most memories, that a module may have. -/
def storageLimit : Nat := 100

/-- Whether a limit is met: at most the greatest, which is at most what addresses reach. -/
def isWithin (least : UInt64) (greatest : Option UInt64) (reach : Nat) : Bool :=
  least.toNat ≤ reach && greatest.all fun size => least ≤ size && size.toNat ≤ reach

/-- The most pages that a memory may declare: as many as addresses reach. -/
def pageReach (wide : Bool) : Nat := if wide then 0x1000000000000 else 0x10000

/-- A memory of plain pages that is not shared, with consistent limits. -/
def isMemoryValid (type : MemoryType) : Bool :=
  !type.shared && type.pageSizeLog2.isNone &&
    isWithin type.minPages type.maxPages (pageReach type.wide)

/-- The most entries that a table may begin with. -/
def entryLimit : Nat := 10000000

/-- A table that is not shared, of entries that begin as null, with consistent limits. -/
def isTableValid (type : TableType) : Bool :=
  !type.shared && type.entries ≠ .other && type.min.toNat ≤ entryLimit &&
    type.max.all fun size => type.min ≤ size

/-- The functions that are referred to outside of code: by exports, globals and segments. -/
def references (program : Module) : List UInt32 :=
  (program.exports.filter (·.kind = .func)).map (·.index) ++
    program.globals.flatMap (·.value.functions) ++
    program.elements.flatMap fun segment => segment.items.flatMap Constant.functions

/-- What code outside of all functions may refer to. -/
def outerScope (program : Module) (functions : List FuncType) : Scope where
  types := program.types
  functions := functions
  globals := program.globalTypes
  memories := program.allMemories
  tables := program.allTables
  elements := program.elements.map (·.type)
  dataCount := program.data.length
  references := program.references
  locals := []
  results := []

/-- What a function of the module may refer to; locals and results are its own. -/
def scope (program : Module) (functions : List FuncType) (type : FuncType) (body : Body) :
    Scope :=
  { program.outerScope functions with
    locals := localTypes type body, results := type.results }

/-- Whether the body of a function leaves the results of its type. -/
def isFunctionValid (program : Module) (functions : List FuncType) (function : Function) : Bool :=
  match program.types[function.type.toNat]? with
  | none => false
  | some type =>
    let body := function.body
    body.locals.all (·.2.isRunnable) &&
      (program.scope functions type body).checkFunction body.code

/-- Whether all values that a function takes and leaves occur in running modules. -/
def isTypeValid (type : FuncType) : Bool :=
  type.params.all ValType.isRunnable && type.results.all ValType.isRunnable

/-- Whether a global has a first value of its type. -/
def isGlobalValid (functionCount : Nat) (item : Global) : Bool :=
  !item.type.shared && item.value.isValid item.type.type functionCount

/-- Whether a data segment goes nowhere, or to an address of a memory that exists. -/
def isDataValid (program : Module) (functionCount : Nat) (segment : DataSegment) : Bool :=
  segment.target.all fun target =>
    (program.allMemories[target.index.toNat]?).any fun type =>
      target.offset.isValid type.addressType functionCount

/-- Whether references have the type of their segment, and that of the table they go to. -/
def isElementValid (program : Module) (functionCount : Nat) (segment : ElementSegment) : Bool :=
  segment.items.all (·.isValid (.ref segment.type) functionCount) &&
    segment.target.all fun target =>
      (program.allTables[target.index.toNat]?).any fun type =>
        type.entries = segment.type && target.offset.isValid type.indexType functionCount

/-- Whether an export refers to something that exists. -/
def isExportValid (program : Module) (functionCount : Nat) (item : Export) : Bool :=
  match item.kind with
  | .func => item.index.toNat < functionCount
  | .global => item.index.toNat < program.globalTypes.length
  | .memory => item.index.toNat < program.allMemories.length
  | .table => item.index.toNat < program.allTables.length
  | .tag => false

/-- Whether the start function takes and leaves nothing. -/
def isStartValid (program : Module) (functions : List FuncType) : Bool :=
  match program.start with
  | none => true
  | some index => functions[index.toNat]? == some ⟨[], []⟩

/-- Whether the module may run. -/
def isValid (program : Module) : Bool :=
  match program.functionTypes? with
  | none => false
  | some functions =>
    let count := functions.length
    program.types.all isTypeValid &&
      program.allMemories.length ≤ storageLimit && program.allMemories.all isMemoryValid &&
      program.allTables.length ≤ storageLimit && program.allTables.all isTableValid &&
      program.globals.all (isGlobalValid count) &&
      (program.exports.map (·.name)).Nodup && program.exports.all (program.isExportValid count) &&
      program.isStartValid functions &&
      program.elements.all (program.isElementValid count) &&
      program.functions.all (program.isFunctionValid functions) &&
      program.data.all (program.isDataValid count)

end Module

end TableKernels.Wasm
