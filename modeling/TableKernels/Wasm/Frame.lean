import Std.Data.HashSet
import TableKernels.Layout
import TableKernels.Wasm.Module
import TableKernels.Wasm.Place

/-!
# Frames

A call takes cells of the value stack: one for each parameter and local, one for each computed
operand that waits, as many as ever wait at once, one for each former value of a local that is still
to be used, and one for each different constant that no instruction carries within itself. A `Plan`
follows the places of all operands through the code of a function, and `frameSize?` counts the cells
in the end.

What a local held before is kept in a cell from the moment at which the local changes, or a block
begins, while copies of it wait. Such a cell is free again only when some local changes after the
last copy was taken. Code that is never reached takes no cells.
-/

namespace TableKernels.Wasm

/-- What the cells of a function depend on beside its code. -/
structure FrameScope where
  types : List FuncType
  functions : List FuncType
  /-- The value of each global that never changes. -/
  fixed : List (Option Word)
  memories : List MemoryType
  localCount : Nat
  resultCount : Nat

/-- The state of laying out a function. -/
structure Plan where
  /-- The operands that wait, the latest first. -/
  stack : List Place
  /-- The number of operands that wait in cells of their own. -/
  waiting : Nat
  /-- The most that ever did. -/
  most : Nat
  /-- The number of times that what a local held was put into a cell. -/
  serial : Nat
  /-- The number of cells that keep what locals held. -/
  keeping : Nat
  /-- The most that ever did. -/
  kept : Nat
  /-- Copies of what is kept may have been taken since these cells were counted. -/
  stale : Bool
  /-- The constants that no instruction carries. -/
  constants : List Nat
  /-- The blocks, by how many are around them, that some jump goes to the end of. -/
  targets : List Nat

/-- How many different numbers a list holds. -/
def countDistinct (numbers : List Nat) : Nat := (Std.HashSet.ofList numbers).size

/-- The most cells that locals, waiting operands and former values may have together. -/
def cellLimit : Nat := 0x7ffe

/-- The most constants that a function may have. -/
def constantLimit : Nat := 0x7fff

/-- The most operands that may wait outside of a block. -/
def operandLimit : Nat := 0xffff

namespace Plan

/-- Nothing waits yet. -/
def empty : Plan := ⟨[], 0, 0, 0, 0, 0, false, [], []⟩

/-- The cells that a function may still use. -/
def room (plan : Plan) (frame : FrameScope) : Nat :=
  cellLimit - frame.localCount - plan.kept - plan.waiting

/-- The latest operand, and the plan without it. -/
def pop? (plan : Plan) : Option (Place × Plan) :=
  match plan.stack with
  | [] => none
  | .temporary :: stack => some (.temporary, { plan with stack, waiting := plan.waiting - 1 })
  -- Copies of a value share a cell, so it is not known to be free before they are counted.
  | .kept serial :: stack => some (.kept serial, { plan with stack, stale := true })
  | place :: stack => some (place, { plan with stack })

/-- The latest operands, in the order of pushing, and the plan without them. -/
def popAll? (plan : Plan) : Nat → Option (List Place × Plan)
  | 0 => some ([], plan)
  | count + 1 => do
    let (last, plan) ← plan.pop?
    let (before, plan) ← plan.popAll? count
    pure (before ++ [last], plan)

/-- So many more operands in cells of their own. -/
def pushTemporaries (plan : Plan) (count : Nat) : Plan :=
  { plan with
    stack := List.replicate count .temporary ++ plan.stack
    waiting := plan.waiting + count
    most := max plan.most (plan.waiting + count) }

/-- The plan after one more operand. -/
def push (plan : Plan) (place : Place) : Plan :=
  match place with
  | .temporary => plan.pushTemporaries 1
  | place => { plan with stack := place :: plan.stack }

/-- One more operand in a cell of its own, if there is one. -/
def compute? (plan : Plan) (frame : FrameScope) : Option Plan :=
  if plan.room frame = 0 then none else some (plan.pushTemporaries 1)

/-- Several operands in cells in a row; they may not take the very last cell. -/
def receive? (plan : Plan) (frame : FrameScope) (count : Nat) : Option Plan :=
  if count < plan.room frame then some (plan.pushTemporaries count) else none

/-- The plan with more constants. -/
def useConstants (plan : Plan) (words : List Word) : Plan :=
  { plan with constants := words.map (·.cellBits) ++ plan.constants }

/-- The plan with the constants among some operands, unless an instruction carries them. -/
def use (plan : Plan) (carried : Word → Bool) (places : List Place) : Plan :=
  plan.useConstants ((places.filterMap (·.word?)).filter (!carried ·))

/-- The result of an operator; after a trap nothing is reached. -/
def finish? (plan : Plan) (frame : FrameScope) : Combination → Option (Plan × Bool)
  | .found place => some (plan.push place, true)
  | .computed constants => do pure (← (plan.useConstants constants).compute? frame, true)
  | .trap => some (plan, false)

/-- Keeps what a local holds, if copies of it wait. -/
def keep? (plan : Plan) (frame : FrameScope) (index : Nat) : Option Plan :=
  if !plan.stack.contains (.ofLocal index) then some plan
  else if plan.keeping = plan.kept ∧ plan.room frame = 0 then none
  else some { plan with
    stack := plan.stack.map fun place =>
      if place = .ofLocal index then .kept plan.serial else place
    serial := plan.serial + 1
    keeping := plan.keeping + 1
    kept := max plan.kept (plan.keeping + 1) }

/-- Keeps what all locals hold of which copies wait. -/
def keepAll? (plan : Plan) (frame : FrameScope) : Option Plan :=
  (plan.stack.filterMap (·.local?)).eraseDups.foldlM (·.keep? frame) plan

/-- The plan when operands are copied to where a jump or the end of the function leaves them. -/
def copy (plan : Plan) (places : List Place) : Plan :=
  if places.length = 1 then plan.use Word.isHalf places else plan.use (fun _ => false) places

/-- The plan when the latest operands are copied; leading ones that were computed are in place. -/
def transfer (plan : Plan) (count : Nat) : Plan :=
  plan.copy ((plan.stack.take count).reverse.dropWhile (· = .temporary))

/--
The plan inside a block that takes and leaves so many operands; so many may wait outside of it as
sixteen bits count.
-/
def enter? (plan : Plan) (frame : FrameScope) (taken left : Nat) : Option Plan := do
  let inside ← plan.keepAll? frame
  if inside.stack.length - taken ≤ operandLimit then
    let (_, below) ← inside.popAll? taken
    pure { inside with most := (← below.receive? frame left).most }
  else none

/-- The plan inside a loop, which takes its operands in cells of their own. -/
def enterLoop? (plan : Plan) (frame : FrameScope) (taken : Nat) : Option Plan := do
  let inside ← plan.keepAll? frame
  if inside.stack.length - taken ≤ operandLimit then
    let (places, below) ← inside.popAll? taken
    (below.copy (places.dropWhile (· = .temporary))).receive? frame taken
  else none

/-- The plan after the cells are free whose former values are not used any more. -/
def release (plan : Plan) : Plan :=
  if plan.stale then
    { plan with keeping := countDistinct (plan.stack.filterMap (·.serial?)), stale := false }
  else plan

/-- Puts the latest operand into a local, and tells which operand it was. -/
def assign? (plan : Plan) (frame : FrameScope) (index : Nat) : Option (Place × Plan) := do
  let (value, plan) ← plan.release.pop?
  if value = .ofLocal index then pure (value, plan)
  else
    let plan ← plan.keep? frame index
    pure (value, plan.use Word.isHalf [value])

/-- The results of the function are handed over. -/
def handOver (plan : Plan) (frame : FrameScope) : Plan :=
  plan.copy (plan.stack.take frame.resultCount)

/-- A jump out of so many blocks, given how many operands the jumps to each of them take. -/
def jump (plan : Plan) (frame : FrameScope) (labels : List Nat) (depth : Nat) : Plan :=
  match labels[depth]? with
  | some count =>
    let plan := plan.transfer count
    { plan with targets := (labels.length - 1 - depth) :: plan.targets }
  | none => plan.handOver frame

/-- The plan with the operands of another one. -/
def restore (plan before : Plan) : Plan :=
  { plan with stack := before.stack, waiting := before.waiting, stale := true }

/-- The plan behind a block whose results are in cells of their own, on top of what waited. -/
def leave (inside before : Plan) (falls : Bool) (taken left : Nat) : Plan :=
  let inside := if falls then inside.transfer left else inside
  let stack := before.stack.drop taken
  { inside with
    stack, waiting := stack.count Place.temporary, stale := true }.pushTemporaries left

/-- The plan without the jumps to a block. -/
def forget (plan : Plan) (block : Nat) : Plan :=
  { plan with targets := plan.targets.filter (· ≠ block) }

/--
The plan behind a block, and whether that is reached: from its end, or by a jump to it. Without a
jump its results stay where they are.
-/
def close (inside before : Plan) (block : Nat) (falls : Bool) (taken left : Nat) : Plan × Bool :=
  if inside.targets.contains block then
    ((inside.leave before falls taken left).forget block, true)
  else (inside, falls)

end Plan

namespace FrameScope

/-- Whether an access to a constant address cannot succeed, however large the memory grows. -/
def isBeyond (frame : FrameScope) (place : MemoryPlace) (base : Nat) : Bool :=
  let address := base + place.offset.toNat
  match frame.memories[place.memory.toNat]? with
  | none => false
  | some type =>
    type.maxPages.any (fun pages => pages.toNat * pageSize < address) ||
      (if type.wide then 0xffffffffffffffff else 0xffffffff) < address

/-- An access to memory at an address: whether it may succeed, and the constants it needs. -/
def access (frame : FrameScope) (place : MemoryPlace) (address : Place) (plan : Plan) :
    Plan × Bool :=
  match address.word? with
  | none => (plan, true)
  | some word =>
    if frame.isBeyond place word.unsigned then (plan, false)
    else if 0xffffffff < word.unsigned + place.offset.toNat then
      (plan.useConstants [.i64 0], true)
    else (plan, true)

/-- The plan after a load, and whether what follows is reached. -/
def load? (frame : FrameScope) (place : MemoryPlace) (plan : Plan) : Option (Plan × Bool) := do
  let (address, plan) ← plan.pop?
  match frame.access place address plan with
  | (plan, true) => pure (← plan.compute? frame, true)
  | unreached => pure unreached

/-- The plan after a save, and whether what follows is reached. -/
def save? (frame : FrameScope) (place : MemoryPlace) (carried : Word → Bool) (plan : Plan) :
    Option (Plan × Bool) := do
  let (value, plan) ← plan.pop?
  let (address, plan) ← plan.pop?
  match frame.access place address plan with
  | (plan, true) => pure (plan.use carried [value], true)
  | unreached => pure unreached

/-- Whether a save carries the constant that it writes. -/
def isCarriedToMemory : Save → Word → Bool
  | .i32, word | .i64, word => word.isShort
  | .i32To8, _ | .i32To16, _ | .i64To8, _ | .i64To16, _ => true
  | .i64To32, .i64 value => (Word.i32 value.toUInt32).isShort
  | _, _ => false

/-- Whether an instruction that changes a global carries the constant. -/
def isCarriedToGlobal : Word → Bool
  | .i32 value => (Word.i32 value).isShort
  | .i64 value => (Word.i64 value).isShort
  | _ => false

/-- Whether an instruction carries a constant that is an index or an amount. -/
def isCarriedIndex (word : Word) : Bool := word.unsigned ≤ 0xffffffff

/-- The plan after one of two operands is chosen. -/
def select? (frame : FrameScope) (plan : Plan) : Option Plan := do
  let (condition, plan) ← plan.pop?
  let (second, plan) ← plan.pop?
  let (first, plan) ← plan.pop?
  match condition.word? with
  | some (.i32 value) =>
    match if value = 0 then second else first with
    -- What is in a cell that may be free soon is copied.
    | .temporary | .kept _ => plan.compute? frame
    | place => pure (plan.push place)
  | _ =>
    if first ≠ .temporary ∧ first = second then pure (plan.push first)
    else (plan.use Word.isHalf [first, second]).compute? frame

/-- The plan after an instruction that takes three amounts, each of which it may carry. -/
def copyMany? (plan : Plan) : Option Plan := do
  let (places, plan) ← plan.popAll? 3
  pure (plan.use Word.isShortNatural places)

/-- The plan after a plain instruction, and whether what follows is reached. -/
def op? (frame : FrameScope) (plan : Plan) : Op → Option (Plan × Bool)
  | .nop | .dataDrop _ | .elemDrop _ => some (plan, true)
  | .drop => do pure ((← plan.pop?).2, true)
  | .select _ => do pure (← frame.select? plan, true)
  | .localGet index => some (plan.push (.ofLocal index.toNat), true)
  | .localSet index => do pure ((← plan.assign? frame index.toNat).2, true)
  | .localTee index => do
    let (value, plan) ← plan.assign? frame index.toNat
    let copy := if value.word?.isSome then value else .ofLocal index.toNat
    pure (plan.push copy, true)
  | .globalGet index =>
    match (frame.fixed[index.toNat]?).join with
    | some word => some (plan.push (.constant word), true)
    | none => do pure (← plan.compute? frame, true)
  | .globalSet _ => do
    let (value, plan) ← plan.pop?
    pure (plan.use isCarriedToGlobal [value], true)
  | .tableGet _ => do
    let (index, plan) ← plan.pop?
    pure (← (plan.use isCarriedIndex [index]).compute? frame, true)
  | .tableSet _ => do
    let (value, plan) ← plan.pop?
    let (index, plan) ← plan.pop?
    pure ((plan.use (fun _ => false) [value]).use isCarriedIndex [index], true)
  | .load _ place => frame.load? place plan
  | .save form place => frame.save? place (isCarriedToMemory form) plan
  | .memorySize _ | .tableSize _ | .refFunc _ => do pure (← plan.compute? frame, true)
  | .memoryGrow _ => do
    let (more, plan) ← plan.pop?
    pure (← (plan.use isCarriedIndex [more]).compute? frame, true)
  | .memoryInit _ _ | .memoryCopy _ _ | .tableInit _ _ | .tableCopy _ _ => do
    pure (← copyMany? plan, true)
  | .memoryFill _ => do
    let (count, plan) ← plan.pop?
    let (_, plan) ← plan.pop?
    let (base, plan) ← plan.pop?
    pure (plan.use Word.isShortNatural [base, count], true)
  | .tableGrow _ => do
    let (more, plan) ← plan.pop?
    let (value, plan) ← plan.pop?
    let plan := (plan.use (fun _ => false) [value]).use Word.isShortNatural [more]
    pure (← plan.compute? frame, true)
  | .tableFill _ => do
    let (count, plan) ← plan.pop?
    let (value, plan) ← plan.pop?
    let (base, plan) ← plan.pop?
    pure ((plan.use (fun _ => false) [value]).use Word.isShortNatural [base, count], true)
  | .i32Const value => some (plan.push (.constant (.i32 value)), true)
  | .i64Const value => some (plan.push (.constant (.i64 value)), true)
  | .f32Const bits => some (plan.push (.constant (.f32 bits)), true)
  | .f64Const bits => some (plan.push (.constant (.f64 bits)), true)
  | .refNull type => do pure (plan.push (.constant (← Word.null? type)), true)
  | .refIsNull => do
    let (value, plan) ← plan.pop?
    match value.word? with
    | some word => pure (plan.push (.constant (truth word.isNull)), true)
    | none => pure (← plan.compute? frame, true)
  | .numeric operator => do
    let (right, plan) ← plan.pop?
    if operator.isUnary then plan.finish? frame (operator.place1 right)
    else
      let (left, plan) ← plan.pop?
      plan.finish? frame (operator.place2 left right)

/-- The plan after a call of a function of some type. -/
def call? (frame : FrameScope) (type : FuncType) (plan : Plan) : Option (Plan × Bool) := do
  let (arguments, plan) ← plan.popAll? type.params.length
  pure (← (plan.use (fun _ => false) arguments).receive? frame type.results.length, true)

/-- The plan after a call in place of the one that is running. -/
def returnCall? (type : FuncType) (plan : Plan) : Option (Plan × Bool) := do
  let (arguments, plan) ← plan.popAll? type.params.length
  pure (plan.use (fun _ => false) arguments, false)

/-- The plan after the number of an entry of a table is taken, through which a call goes. -/
def index? (plan : Plan) : Option Plan := do
  let (index, plan) ← plan.pop?
  pure (plan.use Word.isShortNatural [index])

mutual

/--
The plan after an instruction, and whether what follows is reached. The labels are the numbers of
operands that jumps out of the blocks around it take, the innermost first.
-/
def instr? (frame : FrameScope) (labels : List Nat) (plan : Plan) : Instr → Option (Plan × Bool)
  | .op op => frame.op? plan op
  | .unreachable => some (plan, false)
  | .blockOf type body => do
    let type ← type.type? frame.types
    let taken := type.params.length
    let left := type.results.length
    let before ← plan.enter? frame taken left
    let (inside, falls) ← code? frame (left :: labels) before body
    pure (inside.close before labels.length falls taken left)
  -- A jump to a loop leads to its beginning, so only its end leads on.
  | .loopOf type body => do
    let type ← type.type? frame.types
    let taken := type.params.length
    let before ← plan.enterLoop? frame taken
    let (inside, falls) ← code? frame (taken :: labels) before body
    pure (inside.forget labels.length, falls)
  | .branch type body other => do
    let type ← type.type? frame.types
    let taken := type.params.length
    let left := type.results.length
    let (condition, plan) ← plan.pop?
    let before ← plan.enter? frame taken left
    match condition.word? with
    -- The part of a condition that is never chosen is not looked at.
    | some (.i32 value) =>
      let (inside, falls) ←
        if value = 0 then code? frame (left :: labels) before other
        else code? frame (left :: labels) before body
      pure (inside.close before labels.length falls taken left)
    | _ =>
      let (inside, falls) ← code? frame (left :: labels) before body
      let inside := if falls then inside.transfer left else inside
      let (inside, falls') ← code? frame (left :: labels) (inside.restore before) other
      pure ((inside.leave before falls' taken left).forget labels.length,
        falls || falls' || inside.targets.contains labels.length)
  | .br depth => some (plan.jump frame labels depth.toNat, false)
  | .brIf depth => do
    let (condition, plan) ← plan.pop?
    match condition.word? with
    | some (.i32 0) => pure (plan, true)
    | constant => pure (plan.jump frame labels depth.toNat, constant.isNone)
  | .brTable targets default => do
    let (index, plan) ← plan.pop?
    match index.word? with
    | some word =>
      let chosen := (targets[word.unsigned]?).getD default
      pure (plan.jump frame labels chosen.toNat, false)
    | none =>
      pure ((targets ++ [default]).foldl (·.jump frame labels ·.toNat) plan, false)
  | .ret => some (plan.handOver frame, false)
  | .call function => do frame.call? (← frame.functions[function.toNat]?) plan
  | .callIndirect type _ => do frame.call? (← frame.types[type.toNat]?) (← index? plan)
  | .returnCall function => do returnCall? (← frame.functions[function.toNat]?) plan
  | .returnCallIndirect type _ => do returnCall? (← frame.types[type.toNat]?) (← index? plan)

/-- The plan after instructions in a row, and whether their end is reached. -/
def code? (frame : FrameScope) (labels : List Nat) (plan : Plan) :
    List Instr → Option (Plan × Bool)
  | [] => some (plan, true)
  | instr :: code =>
    match instr? frame labels plan instr with
    | some (plan, true) => code? frame labels plan code
    | ended => ended

end

end FrameScope

/-- The values of the globals of a module that never change; those of imported ones are unknown. -/
def Module.fixedGlobals (program : Module) : List (Option Word) :=
  (program.imports.filter (·.kind.externKind = .global)).map (fun _ => none) ++
    program.globals.map fun item =>
      if item.type.isMutable then none
      else item.value.value?.filter fun word => word.type ≠ .ref .func || word = .funcRef none

/-- The cells of a function, unless it needs more than a frame may have. -/
def frameSize? (frame : FrameScope) (code : List Instr) : Option Nat := do
  if Plan.empty.room frame = 0 then none
  let (plan, reached) ← frame.code? [] .empty code
  let plan := if reached then plan.handOver frame else plan
  let constants := countDistinct plan.constants
  if constantLimit < constants then none
  pure (frame.localCount + plan.most + plan.kept + constants)

end TableKernels.Wasm
