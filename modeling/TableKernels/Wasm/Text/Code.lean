import TableKernels.Wasm.Constant
import TableKernels.Wasm.Text.Signature

/-!
# Code in the text of a module

Instructions come one after another, or folded: in a list an instruction stands before those that
give its operands. `flatten?` puts them into the order in which they run, and `link?` then replaces
the names of blocks by their numbers, and what is written about types by their indices. Blocks are
matched with their ends only there, so a block may begin in one list and end in another. What comes
out are bytes, which still have to make sense.
-/

namespace TableKernels.Wasm.Text

/-- What code may refer to: the names and types of its module, and the names of its locals. -/
structure CodeScope where
  program : Names
  types : List FuncType
  locals : NameList

/-- An instruction in which blocks may still go by names, and types by what they are. -/
inductive Written
  | plain (instr : Instr)
  /-- The beginning of a block with its code. -/
  | opening (code : UInt8) (use : TypeUse) (label : Option String)
  /-- A jump with its code, to the block that a tree stands for. -/
  | jump (code : UInt8) (target : Tree)
  /-- A jump to one of several blocks. -/
  | choice (targets : List Tree)
  /-- A call through a table, with its code. -/
  | indirect (code : UInt8) (use : TypeUse) (table : UInt32)
  /-- The end of a block, or the middle of a branch. -/
  | closing (code : UInt8) (label : Option String)

namespace Parse

/-- A number that a word spells. -/
def numeral {α : Type} (read : List Char → Option α) : Parse α := do
  match ← next with
  | .word letters => given (read letters.toList)
  | _ => refuse

/-- The number below a limit that a word gives after a label, if such a word comes next. -/
def setting? (label : String) (limit : Nat) : Parse (Option Nat) := fun trees =>
  match trees with
  | .word letters :: rest =>
    if letters.startsWith label then
      match Numeral.natural? (letters.toList.drop label.length) with
      | some number => if number < limit then some (some number, rest) else none
      | none => none
    else some (none, .word letters :: rest)
  | trees => some (none, trees)

/-- A place in memory; an alignment that is given must be a power of two. -/
def place (names : Names) (natural : UInt32) : Parse MemoryPlace := do
  let memory ← referenceOrFirst names.memories
  let offset ← setting? "offset=" 0x10000000000000000
  match ← setting? "align=" 0x100000000 with
  | none => return ⟨natural, UInt64.ofNat (offset.getD 0), memory⟩
  | some align =>
    require (1 <<< align.log2 == align)
    return ⟨UInt32.ofNat align.log2, UInt64.ofNat (offset.getD 0), memory⟩

/-- A reference to a segment, which may come behind one to the thing that it fills. -/
def segment (segments things : NameList) : Parse (UInt32 × UInt32) := fun trees =>
  match (do return (← reference things, ← reference segments) : Parse _) trees with
  | some ((thing, segment), rest) => some ((segment, thing), rest)
  | none => (reference segments trees).map fun (segment, rest) => ((segment, 0), rest)

/-- References to what is copied to and from, or none for the first thing. -/
def copied (things : NameList) : Parse (UInt32 × UInt32) := fun trees =>
  match reference things trees with
  | some (target, rest) =>
    (reference things rest).map fun (source, rest) => ((target, source), rest)
  | none => some ((0, 0), trees)

/-- The type of the operands of a choice, if it is written. -/
def chosenType : Parse (Option ValType) := do
  match ← lists "result" with
  | [] => return none
  | groups =>
    match ← given (groups.flatten.mapM parseValType) with
    | [type] => return some type
    | _ => refuse

/-- The type of a null reference. -/
def nullType : Parse RefType := do
  match ← next with
  | .word "func" => return .func
  | .word "extern" => return .host
  | _ => refuse

/-- A load, a save or an operator after its name. -/
def listedOp (names : Names) (name : String) : Parse Op := do
  match Load.listed.find? (·.name = name) with
  | some form => return .load form (← place names form.sizeLog)
  | none =>
    match Save.listed.find? (·.name = name) with
    | some form => return .save form (← place names form.sizeLog)
    | none =>
      return .numeric
        (← given ((Operator.listed ++ Operator.saturations).find? (·.name = name)))

/-- A plain instruction after its name. -/
def op (scope : CodeScope) : String → Parse Op
  | "nop" => return .nop
  | "drop" => return .drop
  | "select" => do return .select (← chosenType)
  | "local.get" => do return .localGet (← reference scope.locals)
  | "local.set" => do return .localSet (← reference scope.locals)
  | "local.tee" => do return .localTee (← reference scope.locals)
  | "global.get" => do return .globalGet (← reference scope.program.globals)
  | "global.set" => do return .globalSet (← reference scope.program.globals)
  | "table.get" => do return .tableGet (← referenceOrFirst scope.program.tables)
  | "table.set" => do return .tableSet (← referenceOrFirst scope.program.tables)
  | "memory.size" => do return .memorySize (← referenceOrFirst scope.program.memories)
  | "memory.grow" => do return .memoryGrow (← referenceOrFirst scope.program.memories)
  | "memory.init" => do
    let (segment, memory) ← segment scope.program.data scope.program.memories
    return .memoryInit segment memory
  | "data.drop" => do return .dataDrop (← reference scope.program.data)
  | "memory.copy" => do
    let (target, source) ← copied scope.program.memories
    return .memoryCopy target source
  | "memory.fill" => do return .memoryFill (← referenceOrFirst scope.program.memories)
  | "table.init" => do
    let (segment, table) ← segment scope.program.elements scope.program.tables
    return .tableInit segment table
  | "elem.drop" => do return .elemDrop (← reference scope.program.elements)
  | "table.copy" => do
    let (target, source) ← copied scope.program.tables
    return .tableCopy target source
  | "table.grow" => do return .tableGrow (← referenceOrFirst scope.program.tables)
  | "table.size" => do return .tableSize (← referenceOrFirst scope.program.tables)
  | "table.fill" => do return .tableFill (← referenceOrFirst scope.program.tables)
  | "i32.const" => do return .i32Const (Int32.ofInt (← numeral (Numeral.integer? 32))).toUInt32
  | "i64.const" => do return .i64Const (Int64.ofInt (← numeral (Numeral.integer? 64))).toUInt64
  | "f32.const" => do return .f32Const (← numeral Numeral.binary32?).bits
  | "f64.const" => do return .f64Const (← numeral Numeral.binary64?).bits
  | "ref.null" => do return .refNull (← nullType)
  | "ref.is_null" => return .refIsNull
  | "ref.func" => do return .refFunc (← reference scope.program.functions)
  | name => listedOp scope.program name

/-- What is written about a type without naming parameters. -/
def namelessUse (names : Names) : Parse TypeUse := do
  let use ← TypeUse.parse names
  require (use.signature.all fun signature => signature.params.all (·.1.isNone))
  return use

/-- The beginning of a block after its name. -/
def opening (scope : CodeScope) (code : UInt8) : Parse Written := do
  let label ← titled
  return .opening code (← namelessUse scope.program) label

/-- A call through a table, after its name; the table may stand in front of the type or behind. -/
def indirect (scope : CodeScope) (code : UInt8) : Parse Written := do
  let tables := scope.program.tables
  let before ← get
  match reference tables before with
  | some (table, rest) =>
    set rest
    return .indirect code (← namelessUse scope.program) table
  | none => do
    let use ← namelessUse scope.program
    return .indirect code use (← referenceOrFirst tables)

/-- All words and names that come next, of which there must be one. -/
def targets : Parse (List Tree) := fun trees =>
  let targets := trees.takeWhile fun tree => match tree with
    | .word letters => (Numeral.natural? letters.toList).isSome
    | .name _ => true
    | _ => false
  if targets.isEmpty then none else some (targets, trees.drop targets.length)

/-- An instruction after its name. -/
def instruction (scope : CodeScope) : String → Parse Written
  | "block" => opening scope 0x02
  | "loop" => opening scope 0x03
  | "if" => opening scope 0x04
  | "else" => do return .closing elseCode (← name?)
  | "end" => do return .closing endCode (← name?)
  | "br" => do return .jump 0x0c (← next)
  | "br_if" => do return .jump 0x0d (← next)
  | "br_table" => do return .choice (← targets)
  | "unreachable" => return .plain .unreachable
  | "return" => return .plain .ret
  | "call" => do return .plain (.call (← reference scope.program.functions))
  | "call_indirect" => indirect scope 0x11
  | "return_call" => do return .plain (.returnCall (← reference scope.program.functions))
  | "return_call_indirect" => indirect scope 0x13
  | name => do return .plain (.op (← op scope name))

end Parse

namespace Tree

/-- Whether a tree is a list. -/
def isList : Tree → Bool
  | .list _ => true
  | _ => false

/-- Whether a tree is a list that begins with a given word. -/
def begins (letters : String) : Tree → Bool
  | .list (.word found :: _) => found = letters
  | _ => false

end Tree

/-- The kind of an annotation that says how likely a jump is taken. -/
def hintKind : String := "metadata.code.branch_hint"

namespace Written

/-- The end of a block that does not say which. -/
def ending : Written := closing endCode none

/-- Puts instructions in order behind others, the latest first. -/
abbrev Flatten : Type := List Written → List Tree → Option (List Written)

/-- A folded branch after its instruction: the condition, and one or two parts in lists. -/
def foldedBranch (inner : Flatten) (before : List Written) (first : Written)
    (items : List Tree) : Option (List Written) := do
  let condition := items.takeWhile (!·.begins "then")
  if !condition.all (·.isList) then none
  let before ← inner before condition
  match items.drop condition.length with
  | [.list (_ :: body)] => (inner (first :: before) body).map (ending :: ·)
  | [.list (_ :: body), .list (.word "else" :: other)] =>
    let body ← inner (first :: before) body
    (inner (closing elseCode none :: body) other).map (ending :: ·)
  | _ => none

/-- The instructions of a list, which may also begin with a hint. -/
def folded (scope : CodeScope) (inner : Flatten) (before : List Written) :
    List Tree → Option (List Written)
  | .note kind :: .string hint :: items =>
    if kind = hintKind ∧ (hint = [0] ∨ hint = [1]) then inner before items else none
  | .word head :: items => do
    let (first, items) ← Parse.instruction scope head items
    match head with
    | "block" | "loop" => (inner (first :: before) items).map (ending :: ·)
    | "if" => foldedBranch inner before first items
    | _ => (inner before items).map (first :: ·)
  | _ => none

/-- Instructions in order behind others, the latest first. Each step takes a word or a list. -/
def flattenFrom (scope : CodeScope) : Nat → Flatten
  | _, before, [] => some before
  | 0, _, _ :: _ => none
  | fuel + 1, before, .word head :: rest =>
    match Parse.instruction scope head rest with
    | some (first, rest) => flattenFrom scope fuel (first :: before) rest
    | none => none
  | fuel + 1, before, .list items :: rest =>
    match folded scope (flattenFrom scope fuel) before items with
    | some before => flattenFrom scope fuel before rest
    | none => none
  | _ + 1, _, _ :: _ => none

/-- Instructions in the order in which they run. -/
def flatten? (scope : CodeScope) (trees : List Tree) : Option (List Written) :=
  (flattenFrom scope (Tree.sizeOfAll trees) [] trees).map List.reverse

/-- One instruction with nothing but folded operands behind others, the latest first. -/
def flattenOneFrom (scope : CodeScope) : Nat → List Written → Tree → Option (List Written)
  | fuel + 1, before, .list (.word head :: items) => do
    let (last, operands) ← Parse.instruction scope head items
    pure (last :: (← operands.foldlM (flattenOneFrom scope fuel) before))
  | _, _, _ => none

/-- One instruction with nothing but folded operands, which run before it. -/
def flattenOne? (scope : CodeScope) (tree : Tree) : Option (List Written) :=
  (flattenOneFrom scope tree.size [] tree).map List.reverse

/-- Whether a signature is that of a block that needs no function type: at most one result. -/
def isPlainBlock (type : FuncType) : Bool := type.params.isEmpty && type.results.length ≤ 1

/-- The types of a module after those that an instruction uses without defining them. -/
def extend (types : List FuncType) : Written → List FuncType
  | opening _ use _ => if isPlainBlock use.type then types else use.extend types
  | indirect _ use _ => use.extend types
  | _ => types

/-- The type of a block, of which something is written. -/
def blockType? (types : List FuncType) (use : TypeUse) : Option BlockType :=
  if use.index.isNone && isPlainBlock use.type then
    some ((use.type.results.head?.map .result).getD .empty)
  else (use.resolve? types).map .function

/-- Whether an instruction takes bytes of a data segment, or drops them. -/
def takesData : Written → Bool
  | plain instr => usesData [instr]
  | _ => false

/-- The number of the block that a tree stands for. -/
def depth? (labels : NameList) (target : Tree) : Option UInt32 :=
  Parse.whole (Parse.reference labels) [target]

/--
The bytes of an instruction inside blocks with labels, the innermost first, and the labels behind
it. The end of a block may repeat its label.
-/
def link? (types : List FuncType) (labels : NameList) : Written → Option (Bytes × NameList)
  | plain instr => some (instr.encode, labels)
  | opening code use label =>
    (blockType? types use).map fun type => (code :: type.encode, label :: labels)
  | jump code target =>
    (depth? labels target).map fun depth => (code :: encodeIndex depth, labels)
  | choice targets => do
    let depths ← targets.mapM (depth? labels)
    pure ((Instr.brTable depths.dropLast (← depths.getLast?)).encode, labels)
  | indirect code use table =>
    (use.resolve? types).map fun type =>
      (code :: encodeIndex type ++ encodeIndex table, labels)
  | closing code label =>
    match labels with
    | [] => some ([code], [])
    | own :: outer =>
      if label.isNone || label == own then
        some ([code], if code = endCode then outer else own :: outer)
      else none

/-- The bytes of instructions in a row inside blocks with labels. -/
def linkRun? (types : List FuncType) : NameList → List Written → Option Bytes
  | _, [] => some []
  | labels, written :: code => do
    let (bytes, labels) ← written.link? types labels
    pure (bytes ++ (← linkRun? types labels code))

/-- The bytes of instructions up to their end. -/
def linkAll? (types : List FuncType) (code : List Written) : Option Bytes :=
  (linkRun? types [] code).map (· ++ [endCode])

end Written

/-- The bytes of the code of a function, or of a constant expression. -/
def parseCode (scope : CodeScope) (trees : List Tree) : Option Bytes := do
  Written.linkAll? scope.types (← Written.flatten? scope trees)

/-- The bytes of a constant expression that is one instruction with folded operands. -/
def parseFolded (scope : CodeScope) (tree : Tree) : Option Bytes := do
  Written.linkAll? scope.types (← Written.flattenOne? scope tree)

end TableKernels.Wasm.Text
