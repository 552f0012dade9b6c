import TableKernels.LinearMemory
import TableKernels.Wasm.Evaluation
import TableKernels.Wasm.Typing

/-!
# Running code

`exec` runs a list of instructions against an operand stack, the locals of a function and a store.
A block runs on an operand stack of its own, which begins with what the block takes, so whatever it
does, the other operands are as they were. Running ends in one of seven ways, kept apart: falling
through, a jump out of so many blocks, a return, a call in place of the one that is running, a trap,
a bound that ran out, and a state that no well-typed code reaches.

The first argument of `exec` bounds the length of every chain of steps, where going round a loop and
going on in a list are steps; a run that ends under some bound ends the same way under every greater
one. Functions that the host supplies act on a host state of any type.
-/

namespace TableKernels.Wasm

/-- A linear memory of an instance. -/
structure Memory where
  bytes : ByteArray
  /-- The most pages that the memory may grow to. -/
  maxPages : Nat
  /-- Addresses and sizes have 64 bits. -/
  wide : Bool

namespace Memory

/-- The memory of an instance that has none. -/
def none : Memory := ⟨.empty, 0, false⟩

/-- The number of bytes of a memory. -/
def size (memory : Memory) : Nat := memory.bytes.size

/-- The number of whole pages of a memory. -/
def pages (memory : Memory) : Nat := memory.size / pageSize

/-- A number of pages as a word of the width of addresses. -/
def pageWord (memory : Memory) (pages : Nat) : Word :=
  if memory.wide then .i64 (UInt64.ofNat pages) else .i32 (UInt32.ofNat pages)

/-- The byte at an address that was checked; any other reads as zero. -/
@[inline]
def byteAt (memory : Memory) (address : Nat) : UInt8 :=
  if inside : address < memory.bytes.size then memory.bytes[address] else 0

/-- The byte at an address, if it lies in memory. -/
def load8? (memory : Memory) (address : Nat) : Option UInt8 :=
  if address < memory.size then some (memory.byteAt address) else Option.none

/-- The bytes of a memory from an address on, which was checked. -/
def bytesAt (memory : Memory) (address count : Nat) : Bytes :=
  (List.range count).map fun place => memory.byteAt (address + place)

/-- The word of so many bytes, at most eight, from an address on, if they lie in memory. -/
def loadWord? (memory : Memory) (count address : Nat) : Option UInt64 :=
  if address + count ≤ memory.size then
    some (LittleEndian.decode (memory.bytesAt address count))
  else Option.none

/-- The memory with other bytes. -/
@[inline]
def withBytes (memory : Memory) (change : ByteArray → ByteArray) : Memory :=
  match memory with
  | ⟨bytes, maxPages, wide⟩ => ⟨change bytes, maxPages, wide⟩

/-- Replaces one byte; an address outside memory has no effect. -/
@[inline]
def setByte (bytes : ByteArray) (address : Nat) (value : UInt8) : ByteArray :=
  if inside : address < bytes.size then bytes.set address value inside else bytes

/-- Replaces so many bytes from an address on by one value. -/
def fillBytes (bytes : ByteArray) (address : Nat) (value : UInt8) : Nat → ByteArray
  | 0 => bytes
  | count + 1 => fillBytes (setByte bytes address value) (address + 1) value count

/-- Adds zeroed pages, unless that exceeds the limit. -/
def grow (memory : Memory) (more : Nat) : Memory :=
  memory.withBytes fun bytes => extendBytes bytes 0 (more * pageSize)

/-- Whether so many more pages are within the limit. -/
def canGrow (memory : Memory) (more : Nat) : Bool := memory.pages + more ≤ memory.maxPages

end Memory

/-- A table of an instance. -/
structure Table where
  entries : Array Word
  /-- The most entries that the table may grow to. -/
  limit : Nat
  /-- Indices and sizes have 64 bits. -/
  wide : Bool

namespace Table

/-- The table of an instance that has none. -/
def none : Table := ⟨#[], 0, false⟩

/-- A number of entries as a word of the width of indices. -/
def sizeWord (table : Table) (size : Nat) : Word :=
  if table.wide then .i64 (UInt64.ofNat size) else .i32 (UInt32.ofNat size)

/-- Replaces entries from an index on; those outside the table have no effect. -/
def overwriteFrom (entries : Array Word) (index : Nat) (words : List Word) : Array Word :=
  (words.foldl (fun (entries, index) word => (entries.setIfInBounds index word, index + 1))
    (entries, index)).1

end Table

/-- The segments of an instance; what was dropped of them is empty. -/
structure Segments where
  data : Array Bytes
  elements : Array (List Word)

/--
What the functions of an instance act on. The first memory stands apart from the others, which few
instances have.
-/
structure Store (Host : Type) where
  memory : Memory
  others : Array Memory
  globals : Array Word
  tables : Array Table
  segments : Segments
  host : Host

namespace Store

variable {Host : Type}

/-- The memory with an index. -/
@[inline]
def memoryAt (store : Store Host) (index : UInt32) : Memory :=
  if index = 0 then store.memory else (store.others[index.toNat - 1]?).getD .none

/-- Changes the memory with an index. -/
@[inline]
def changeMemory (store : Store Host) (index : UInt32) (change : Memory → Memory) : Store Host :=
  match store with
  | ⟨memory, others, globals, tables, segments, host⟩ =>
    if index = 0 then ⟨change memory, others, globals, tables, segments, host⟩
    else ⟨memory, others.modify (index.toNat - 1) change, globals, tables, segments, host⟩

/-- Replaces bytes of the memory with an index. -/
@[inline]
def changeBytes (store : Store Host) (index : UInt32) (change : ByteArray → ByteArray) :
    Store Host :=
  store.changeMemory index fun memory => memory.withBytes change

/-- The table with an index. -/
def tableAt (store : Store Host) (index : UInt32) : Table :=
  (store.tables[index.toNat]?).getD .none

/-- Replaces the entries of the table with an index. -/
def changeEntries (store : Store Host) (index : UInt32) (change : Array Word → Array Word) :
    Store Host :=
  { store with tables := store.tables.modify index.toNat fun table =>
      { table with entries := change table.entries } }

/-- The bytes of the data segment with an index. -/
def dataAt (store : Store Host) (index : UInt32) : Bytes :=
  (store.segments.data[index.toNat]?).getD []

/-- The references of the segment with an index. -/
def elementsAt (store : Store Host) (index : UInt32) : List Word :=
  (store.segments.elements[index.toNat]?).getD []

/-- Drops the bytes of a data segment. -/
def dropData (store : Store Host) (index : UInt32) : Store Host :=
  { store with segments.data := store.segments.data.setIfInBounds index.toNat [] }

/-- Drops the references of a segment. -/
def dropElements (store : Store Host) (index : UInt32) : Store Host :=
  { store with segments.elements := store.segments.elements.setIfInBounds index.toNat [] }

end Store

/-- A function that the host supplies: it takes words and leaves words, or traps. -/
structure HostFunction (Host : Type) where
  type : FuncType
  run : List Word → Host → Except Trap (List Word) × Host

/-- A function that a module defines. -/
structure Routine where
  type : FuncType
  locals : List Word
  code : List Instr
  /-- The cells that a call takes. -/
  cells : Nat

/-- The functions of an instance, those of the host first, and the types of its module. -/
structure Program (Host : Type) where
  imports : Array (HostFunction Host)
  routines : Array Routine
  types : List FuncType

/-- How running code ends. -/
inductive Outcome (Host : Type)
  | next (stack : List Word) (locals : Array Word) (store : Store Host)
  | jump (depth : Nat) (stack : List Word) (locals : Array Word) (store : Store Host)
  | ret (stack : List Word) (store : Store Host)
  /-- A call of a function with some arguments, in place of the one that is running. -/
  | tail (function : UInt32) (arguments : List Word) (store : Store Host)
  | trap (trap : Trap) (store : Store Host)
  | exhausted
  | stuck

/-- How a plain instruction ends. -/
inductive Effect (Host : Type)
  | next (stack : List Word) (locals : Array Word) (store : Store Host)
  | trap (trap : Trap) (store : Store Host)
  | stuck

variable {Host : Type}

/-- An operator takes its operands off the stack and leaves its result. -/
@[inline]
def Operator.step (operator : Operator) (stack : List Word) (locals : Array Word)
    (store : Store Host) : Effect Host :=
  let finish := fun evaluation rest => match evaluation with
    | Evaluation.result word => Effect.next (word :: rest) locals store
    | .trap trap => .trap trap store
    | .stuck => .stuck
  if operator.isUnary then
    match stack with
    | word :: rest => finish (operator.apply1 word) rest
    | [] => .stuck
  else
    match stack with
    | right :: left :: rest => finish (operator.apply2 left right) rest
    | _ => .stuck

namespace MemoryPlace

/-- The address of a place, given the number that code adds to it. -/
@[inline]
def address (place : MemoryPlace) (base : Nat) : Nat := base + place.offset.toNat

/-- Loads what a reader finds at a place. -/
@[inline]
def load (place : MemoryPlace) (read : Memory → Nat → Option Word) (base : Nat)
    (rest : List Word) (locals : Array Word) (store : Store Host) : Effect Host :=
  match read (store.memoryAt place.memory) (place.address base) with
  | some word => .next (word :: rest) locals store
  | none => .trap .memoryOutOfBounds store

/-- Stores so many bytes at a place, if they fit. -/
@[inline]
def save (place : MemoryPlace) (count : Nat) (write : ByteArray → Nat → ByteArray) (base : Nat)
    (rest : List Word) (locals : Array Word) (store : Store Host) : Effect Host :=
  if place.address base + count ≤ (store.memoryAt place.memory).size then
    .next rest locals
      (store.changeBytes place.memory fun bytes => write bytes (place.address base))
  else .trap .memoryOutOfBounds store

end MemoryPlace

/-- What a load reads of a memory at an address; a byte is read as it stands. -/
@[inline]
def Load.read (form : Load) (memory : Memory) (address : Nat) : Option Word :=
  if form.size = 1 then (memory.load8? address).map fun byte => form.word byte.toUInt64
  else (memory.loadWord? form.size address).map form.word

/-- Bytes in which a save has written a word at an address. -/
@[inline]
def Save.write (form : Save) (bits : UInt64) (bytes : ByteArray) (address : Nat) : ByteArray :=
  if form.size = 1 then Memory.setByte bytes address bits.toUInt8
  else overwrite bytes address (LittleEndian.encode form.size bits)

namespace Store

/-- Fills so many bytes of a memory, if they fit. -/
@[inline]
def fill (store : Store Host) (memory : UInt32) (base : Nat) (value : UInt8) (count : Nat)
    (rest : List Word) (locals : Array Word) : Effect Host :=
  if base + count ≤ (store.memoryAt memory).size then
    .next rest locals
      (store.changeBytes memory fun bytes => Memory.fillBytes bytes base value count)
  else .trap .memoryOutOfBounds store

/-- Grows a memory and leaves its size before, or the greatest word if it cannot grow. -/
@[inline]
def grow (store : Store Host) (memory : UInt32) (more : Nat) (failed : Word)
    (rest : List Word) (locals : Array Word) : Effect Host :=
  let before := (store.memoryAt memory).pageWord (store.memoryAt memory).pages
  if (store.memoryAt memory).canGrow more then
    .next (before :: rest) locals (store.changeMemory memory (·.grow more))
  else .next (failed :: rest) locals store

/-- Writes bytes into a memory, if there are any to write and they fit. -/
def write (store : Store Host) (memory : UInt32) (address : Nat) (content? : Option Bytes)
    (rest : List Word) (locals : Array Word) : Effect Host :=
  match content? with
  | some content =>
    if address + content.length ≤ (store.memoryAt memory).size then
      .next rest locals
        (store.changeBytes memory fun bytes => overwrite bytes address content)
    else .trap .memoryOutOfBounds store
  | none => .trap .memoryOutOfBounds store

/-- Puts entries into a table, if there are any to put and they fit. -/
def put (store : Store Host) (table : UInt32) (index : Nat) (words? : Option (List Word))
    (rest : List Word) (locals : Array Word) : Effect Host :=
  match words? with
  | some words =>
    if index + words.length ≤ (store.tableAt table).entries.size then
      .next rest locals
        (store.changeEntries table fun entries => Table.overwriteFrom entries index words)
    else .trap .tableOutOfBounds store
  | none => .trap .tableOutOfBounds store

/-- Grows a table and leaves its size before, or the greatest word if it cannot grow. -/
def growTable (store : Store Host) (table : UInt32) (word : Word) (more : Nat) (failed : Word)
    (rest : List Word) (locals : Array Word) : Effect Host :=
  let found := store.tableAt table
  if found.entries.size + more ≤ found.limit then
    .next (found.sizeWord found.entries.size :: rest) locals
      (store.changeEntries table (· ++ Array.replicate more word))
  else .next (failed :: rest) locals store

end Store

/-- So many items of a list from a place on, if there are as many. -/
def slice? {α : Type} (items : List α) (start count : Nat) : Option (List α) :=
  if start + count ≤ items.length then some ((items.drop start).take count) else none

/-- The bytes of a memory from an address on, if they lie in memory. -/
def Memory.slice? (memory : Memory) (start count : Nat) : Option Bytes :=
  if start + count ≤ memory.size then some (memory.bytesAt start count) else Option.none

/-- So many copies of an entry, if a table has room for them from an index on. -/
def Table.copies? (table : Table) (index : Nat) (word : Word) (count : Nat) : Option (List Word) :=
  if index + count ≤ table.entries.size then some (List.replicate count word) else Option.none

/-- The number that is the latest operand, and the operands below it. -/
@[inline]
def popNumber? : List Word → Option (Nat × List Word)
  | .i32 number :: rest => some (number.toNat, rest)
  | .i64 number :: rest => some (number.toNat, rest)
  | _ => none

/-- Runs an instruction that takes a number. -/
@[inline]
def withNumber (stack : List Word) (run : Nat → List Word → Effect Host) : Effect Host :=
  match popNumber? stack with
  | some (number, rest) => run number rest
  | none => .stuck

/-- Runs an instruction that takes three numbers. -/
@[inline]
def withNumbers (stack : List Word) (run : Nat → Nat → Nat → List Word → Effect Host) :
    Effect Host :=
  withNumber stack fun third rest => withNumber rest fun second rest =>
    withNumber rest fun first rest => run first second third rest

/-- Runs a plain instruction. -/
@[inline]
def Op.step (op : Op) (stack : List Word) (locals : Array Word) (store : Store Host) :
    Effect Host :=
  match op with
  | .nop => .next stack locals store
  | .drop =>
    match stack with
    | _ :: rest => .next rest locals store
    | [] => .stuck
  | .select _ =>
    match stack with
    | .i32 condition :: second :: first :: rest =>
      .next ((if condition = 0 then second else first) :: rest) locals store
    | _ => .stuck
  | .localGet index =>
    match locals[index.toNat]? with
    | some word => .next (word :: stack) locals store
    | none => .stuck
  | .localSet index =>
    match stack with
    | word :: rest => .next rest (locals.setIfInBounds index.toNat word) store
    | [] => .stuck
  | .localTee index =>
    match stack with
    | word :: rest => .next (word :: rest) (locals.setIfInBounds index.toNat word) store
    | [] => .stuck
  | .globalGet index =>
    match store.globals[index.toNat]? with
    | some word => .next (word :: stack) locals store
    | none => .stuck
  | .globalSet index =>
    match stack with
    | word :: rest =>
      .next rest locals { store with globals := store.globals.setIfInBounds index.toNat word }
    | [] => .stuck
  | .tableGet table =>
    withNumber stack fun index rest =>
      match (store.tableAt table).entries[index]? with
      | some word => .next (word :: rest) locals store
      | none => .trap .tableOutOfBounds store
  | .tableSet table =>
    match stack with
    | word :: rest => withNumber rest fun index rest => store.put table index [word] rest locals
    | [] => .stuck
  -- An address has 32 or 64 bits, as its memory was declared.
  | .load form place =>
    withNumber stack fun base rest => place.load form.read base rest locals store
  | .save form place =>
    match stack with
    | value :: rest =>
      match form.bits? value with
      | some bits =>
        withNumber rest fun base rest =>
          place.save form.size (form.write bits) base rest locals store
      | none => .stuck
    | [] => .stuck
  | .memorySize memory =>
    let found := store.memoryAt memory
    .next (found.pageWord found.pages :: stack) locals store
  | .memoryGrow memory =>
    match stack with
    | .i32 more :: rest => store.grow memory more.toNat (.i32 0xffffffff) rest locals
    | .i64 more :: rest => store.grow memory more.toNat (.i64 0xffffffffffffffff) rest locals
    | _ => .stuck
  | .memoryInit segment memory =>
    withNumbers stack fun target source count rest =>
      store.write memory target (slice? (store.dataAt segment) source count) rest locals
  | .dataDrop segment => .next stack locals (store.dropData segment)
  | .memoryCopy target source =>
    withNumbers stack fun base start count rest =>
      store.write target base ((store.memoryAt source).slice? start count) rest locals
  | .memoryFill memory =>
    match stack with
    | .i32 count :: .i32 value :: .i32 base :: rest =>
      store.fill memory base.toNat value.toUInt8 count.toNat rest locals
    | .i64 count :: .i32 value :: .i64 base :: rest =>
      store.fill memory base.toNat value.toUInt8 count.toNat rest locals
    | _ => .stuck
  | .tableInit segment table =>
    withNumbers stack fun target source count rest =>
      store.put table target (slice? (store.elementsAt segment) source count) rest locals
  | .elemDrop segment => .next stack locals (store.dropElements segment)
  | .tableCopy target source =>
    withNumbers stack fun base start count rest =>
      store.put target base (slice? (store.tableAt source).entries.toList start count) rest locals
  | .tableGrow table =>
    match stack with
    | .i32 more :: word :: rest =>
      store.growTable table word more.toNat (.i32 0xffffffff) rest locals
    | .i64 more :: word :: rest =>
      store.growTable table word more.toNat (.i64 0xffffffffffffffff) rest locals
    | _ => .stuck
  | .tableSize table =>
    let found := store.tableAt table
    .next (found.sizeWord found.entries.size :: stack) locals store
  | .tableFill table =>
    withNumber stack fun count rest =>
      match rest with
      | word :: rest =>
        withNumber rest fun index rest =>
          store.put table index ((store.tableAt table).copies? index word count) rest locals
      | [] => .stuck
  | .i32Const value => .next (.i32 value :: stack) locals store
  | .i64Const value => .next (.i64 value :: stack) locals store
  | .f32Const bits => .next (.f32 bits :: stack) locals store
  | .f64Const bits => .next (.f64 bits :: stack) locals store
  | .refNull type =>
    match Word.null? type with
    | some word => .next (word :: stack) locals store
    | none => .stuck
  | .refIsNull =>
    match stack with
    | word :: rest => .next (truth word.isNull :: rest) locals store
    | [] => .stuck
  | .refFunc function => .next (.funcRef (some function) :: stack) locals store
  | .numeric operator => operator.step stack locals store

/-- The latest operands, in the order of pushing, and those below; there must be enough. -/
def popWords? (count : Nat) (stack : List Word) : Option (List Word × List Word) :=
  if count ≤ stack.length then some ((stack.take count).reverse, stack.drop count) else none

theorem popWords?_reverse_append (words rest : List Word) :
    popWords? words.length (words.reverse ++ rest) = some (words, rest) := by
  have enough : words.length ≤ (words.reverse ++ rest).length := by
    rw [List.length_append, List.length_reverse]
    exact Nat.le_add_right _ _
  have length : words.reverse.length = words.length := List.length_reverse
  rw [popWords?, if_pos enough, ← length, List.take_left, List.drop_left, List.reverse_reverse]

namespace Outcome

/-- Goes on where code falls through. -/
@[inline]
def andThen (outcome : Outcome Host)
    (through : List Word → Array Word → Store Host → Outcome Host) : Outcome Host :=
  match outcome with
  | next stack locals store => through stack locals store
  | outcome => outcome

/--
The outcome of a block, seen from outside: so many results on top of the other operands. A jump to
the block goes on behind it, and one further out has one block less to leave.
-/
@[inline]
def leaveBlock (resultCount : Nat) (rest : List Word) (outcome : Outcome Host) : Outcome Host :=
  match outcome with
  | next stack locals store | jump 0 stack locals store =>
    next (stack.take resultCount ++ rest) locals store
  | jump (outer + 1) stack locals store => jump outer stack locals store
  | outcome => outcome

/-- The outcome of a call, seen by the caller: results on top of the caller's operands. -/
def leaveCall (resultCount : Nat) (rest : List Word) (locals : Array Word) :
    Outcome Host → Outcome Host
  | next stack _ store | ret stack store | jump 0 stack _ store =>
    if resultCount ≤ stack.length then next (stack.take resultCount ++ rest) locals store
    else stuck
  | jump (_ + 1) _ _ _ => stuck
  | tail _ _ _ => stuck
  | trap reason store => trap reason store
  | exhausted => exhausted
  | stuck => stuck

end Outcome

/-- Calls a function of the host: its results come on top of the caller's operands. -/
def HostFunction.call (function : HostFunction Host) (rest : List Word) (arguments : List Word)
    (locals : Array Word) (store : Store Host) : Outcome Host :=
  match store with
  | ⟨memory, others, globals, tables, segments, host⟩ =>
    match function.run arguments host with
    | (.ok results, host) =>
      .next (results.reverse ++ rest) locals ⟨memory, others, globals, tables, segments, host⟩
    | (.error trap, host) => .trap trap ⟨memory, others, globals, tables, segments, host⟩

/-- What is left of the call stack: how many calls may be nested, and the cells they may take. -/
structure Headroom where
  calls : Nat
  cells : Nat
deriving DecidableEq

namespace Headroom

/-- What is left inside a call that takes so many cells, if that can be had. -/
def enter? (room : Headroom) (cells : Nat) : Option Headroom :=
  match room.calls with
  | 0 => none
  | calls + 1 => if cells ≤ room.cells then some ⟨calls, room.cells - cells⟩ else none

/-- Whether a function of the host finds cells for what it takes and for what it leaves. -/
def canLend (room : Headroom) (type : FuncType) : Bool :=
  max type.params.length type.results.length ≤ room.cells

/-- An empty call stack that has cells for so many results. -/
def full (resultCount : Nat) : Headroom := ⟨1024, 131071 - resultCount⟩

end Headroom

namespace Program

/-- The type of the function with an index, and the cells that a call of it takes. -/
def demand? (program : Program Host) (index : UInt32) : Option (FuncType × Nat) :=
  match program.imports[index.toNat]? with
  | some function =>
    some (function.type, max function.type.params.length function.type.results.length)
  | none =>
    (program.routines[index.toNat - program.imports.size]?).map fun routine =>
      (routine.type, routine.cells)

/-- The number of results of the function with an index. -/
def resultCount (program : Program Host) (index : UInt32) : Nat :=
  match program.demand? index with
  | some (type, _) => type.results.length
  | none => 0

/-- The function that is called through an entry of a table as one of a given type. -/
def callee (program : Program Host) (type : UInt32) (found? : Option Word) : Except Trap UInt32 :=
  match found? with
  | none => .error .tableOutOfBounds
  | some (.funcRef (some function)) =>
    match program.demand? function, program.types[type.toNat]? with
    | some (found, _), some asked => if found = asked then .ok function else .error .wrongSignature
    | _, _ => .error .wrongSignature
  | some _ => .error .nullReference

end Program

/--
Runs a block on a stack of its own: it begins with what the block takes and ends with what it
leaves, while the other operands wait.
-/
@[inline]
def runBlock (type? : Option FuncType) (stack : List Word) (run : List Word → Outcome Host)
    (through : List Word → Array Word → Store Host → Outcome Host) : Outcome Host :=
  match type? with
  | some ⟨params, results⟩ =>
    ((run (stack.take params.length)).leaveBlock results.length
      (stack.drop params.length)).andThen through
  | none => .stuck

/-- Runs code. `room` is what is left of the call stack. -/
def exec (program : Program Host) :
    Nat → Headroom → List Instr → List Word → Array Word → Store Host → Outcome Host
  | 0, _, _, _, _, _ => .exhausted
  | _ + 1, _, [], stack, locals, store => .next stack locals store
  | fuel + 1, room, .op op :: code, stack, locals, store =>
    match op.step stack locals store with
    | .next stack locals store => exec program fuel room code stack locals store
    | .trap trap store => .trap trap store
    | .stuck => .stuck
  | _ + 1, _, .unreachable :: _, _, _, store => .trap .unreachable store
  | fuel + 1, room, .blockOf type body :: code, stack, locals, store =>
    runBlock (type.type? program.types) stack
      (fun inner => exec program fuel room body inner locals store) (exec program fuel room code)
  | fuel + 1, room, .loopOf type body :: code, stack, locals, store =>
    match type.type? program.types with
    | some ⟨params, results⟩ =>
      match exec program fuel room body (stack.take params.length) locals store with
      -- A jump to a loop leads back to its beginning.
      | .jump 0 inner locals store =>
        exec program fuel room (.loopOf type body :: code)
          (inner.take params.length ++ stack.drop params.length) locals store
      | outcome =>
        (outcome.leaveBlock results.length (stack.drop params.length)).andThen
          (exec program fuel room code)
    | none => .stuck
  | fuel + 1, room, .branch type body other :: code, stack, locals, store =>
    match stack with
    | .i32 condition :: stack =>
      runBlock (type.type? program.types) stack
        (fun inner =>
          exec program fuel room (if condition = 0 then other else body) inner locals store)
        (exec program fuel room code)
    | _ => .stuck
  | _ + 1, _, .br target :: _, stack, locals, store => .jump target.toNat stack locals store
  | fuel + 1, room, .brIf target :: code, stack, locals, store =>
    match stack with
    | .i32 condition :: stack =>
      if condition = 0 then exec program fuel room code stack locals store
      else .jump target.toNat stack locals store
    | _ => .stuck
  | _ + 1, _, .brTable targets default :: _, stack, locals, store =>
    match stack with
    | .i32 index :: stack =>
      .jump ((targets[index.toNat]?).getD default).toNat stack locals store
    | _ => .stuck
  | _ + 1, _, .ret :: _, stack, _, store => .ret stack store
  -- Functions of the host come before those of the module.
  | fuel + 1, room, .call index :: code, stack, locals, store =>
    match program.imports[index.toNat]? with
    | some function =>
      match popWords? function.type.params.length stack with
      | some (arguments, rest) =>
        if room.canLend function.type then
          (function.call rest arguments locals store).andThen (exec program fuel room code)
        else .trap .stackExhausted store
      | none => .stuck
    | none =>
      match program.routines[index.toNat - program.imports.size]? with
      | some routine =>
        match popWords? routine.type.params.length stack with
        | some (arguments, rest) =>
          match room.enter? routine.cells with
          | some inside =>
            match exec program fuel inside routine.code []
              (arguments ++ routine.locals).toArray store with
            -- The function called last answers in place of the one that called it.
            | .tail function arguments store =>
              exec program fuel room (.call function :: code) (arguments.reverse ++ rest) locals
                store
            | outcome =>
              (outcome.leaveCall routine.type.results.length rest locals).andThen
                (exec program fuel room code)
          | none => .trap .stackExhausted store
        | none => .stuck
      | none => .stuck
  | fuel + 1, room, .callIndirect type table :: code, stack, locals, store =>
    match popNumber? stack with
    | some (index, rest) =>
      match program.callee type (store.tableAt table).entries[index]? with
      | .ok function => exec program fuel room (.call function :: code) rest locals store
      | .error trap => .trap trap store
    | none => .stuck
  -- The cells of the function called last are taken before those of its caller are given back.
  | _ + 1, room, .returnCall function :: _, stack, _, store =>
    match program.demand? function with
    | some (type, cells) =>
      match popWords? type.params.length stack with
      | some (arguments, _) =>
        if cells ≤ room.cells then .tail function arguments store else .trap .stackExhausted store
      | none => .stuck
    | none => .stuck
  | fuel + 1, room, .returnCallIndirect type table :: code, stack, locals, store =>
    match popNumber? stack with
    | some (index, rest) =>
      match program.callee type (store.tableAt table).entries[index]? with
      | .ok function => exec program fuel room (.returnCall function :: code) rest locals store
      | .error trap => .trap trap store
    | none => .stuck

/-- Where no code is left, everything stays as it is. -/
theorem exec_nil (program : Program Host) (fuel : Nat) (room : Headroom) (stack : List Word)
    (locals : Array Word) (store : Store Host) :
    exec program (fuel + 1) room [] stack locals store = .next stack locals store := by
  rw [exec]

/-- The bound under which an instance runs code: any loop over a table ends well within it. -/
def stepBound : Nat := 0x4000000000000000

/-- How a call from outside ends. -/
inductive CallResult (Host : Type)
  | done (results : List Word) (store : Store Host)
  | trap (trap : Trap) (store : Store Host)
  | unfinished

/-- Calls the function with an index, imported or not, from outside. -/
def Program.invoke (program : Program Host) (index : UInt32) (arguments : List Word)
    (store : Store Host) : CallResult Host :=
  let room := Headroom.full (program.resultCount index)
  match exec program stepBound room [.call index] arguments.reverse #[] store with
  | .next stack _ store | .ret stack store | .jump _ stack _ store => .done stack.reverse store
  | .trap trap store => .trap trap store
  | .tail _ _ _ | .exhausted | .stuck => .unfinished

end TableKernels.Wasm
