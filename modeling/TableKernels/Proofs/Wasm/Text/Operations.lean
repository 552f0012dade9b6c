import TableKernels.Proofs.Wasm.Text.Heads

/-!
# Reading plain instructions

How each plain instruction is written in trees: its name, and what follows the name. What follows
may be left out where it says nothing, so it matters that the next instruction is not taken for it.
Whatever way an instruction is written, it is the one that is read.
-/

namespace TableKernels.Wasm.Text

/-! ## What follows an instruction -/

/-- Whether an instruction may begin with a tree: with a word, or with a list that begins so. -/
def Tree.isNext : Tree → Bool
  | .word letters | .list (.word letters :: _) => isHead letters
  | _ => false

/-- Trees that no instruction in front of them takes as its own. -/
def Follows (trees : List Tree) : Prop := ∀ first ∈ trees.head?, first.isNext = true

theorem startsWith_eq_isPrefixOf (letters label : String) :
    letters.startsWith label = label.toList.isPrefixOf letters.toList := by
  rw [Bool.eq_iff_iff, String.startsWith_string_iff, List.isPrefixOf_iff_prefix]

theorem follows_nil : Follows [] := nofun

theorem follows_cons {first : Tree} (next : first.isNext = true) (rest : List Tree) :
    Follows (first :: rest) := by
  intro other mem
  cases mem
  exact next

/-- What follows an instruction is nothing, a word, or a list that begins with a word. -/
theorem Follows.cases {trees : List Tree} (follows : Follows trees) :
    trees = [] ∨ ∃ letters rest, isHead letters = true ∧
      (trees = .word letters :: rest ∨
        ∃ items, trees = .list (.word letters :: items) :: rest) := by
  match trees, follows with
  | [], _ => exact .inl rfl
  | .word letters :: rest, follows => exact .inr ⟨letters, rest, follows _ rfl, .inl rfl⟩
  | .list (.word letters :: items) :: rest, follows =>
    exact .inr ⟨letters, rest, follows _ rfl, .inr ⟨items, rfl⟩⟩
  | .name _ :: _, follows | .note _ :: _, follows | .string _ :: _, follows
  | .list [] :: _, follows | .list (.name _ :: _) :: _, follows
  | .list (.note _ :: _) :: _, follows | .list (.string _ :: _) :: _, follows
  | .list (.list _ :: _) :: _, follows => cases follows _ rfl

namespace Parse

variable {α β : Type} {trees rest : List Tree}

theorem bind_of_some {parse : Parse α} {next : α → Parse β} {value : α}
    (read : parse trees = some (value, rest)) : (parse >>= next) trees = next value rest := by
  change (parse trees).bind (fun pair => next pair.1 pair.2) = _
  rw [read]
  rfl

theorem bind_of_none {parse : Parse α} {next : α → Parse β} (refused : parse trees = none) :
    (parse >>= next) trees = none := by
  change (parse trees).bind (fun pair => next pair.1 pair.2) = _
  rw [refused]
  rfl

theorem map_of_some {parse : Parse α} {value : α} (make : α → β)
    (read : parse trees = some (value, rest)) :
    (do return make (← parse) : Parse β) trees = some (make value, rest) := by
  rw [bind_of_some read]
  rfl

end Parse

theorem reference_word {letters : String} (none : Numeral.natural? letters.toList = none)
    (names : NameList) (rest : List Tree) :
    Parse.reference names (.word letters :: rest) = Option.none := by
  simp [Parse.reference, Parse.name?, Parse.natural, Parse.next, Parse.given, Parse.refuse,
    bind, StateT.bind, none]

section Follows

variable {trees : List Tree} (follows : Follows trees)

include follows

theorem Follows.name? : Parse.name? trees = some (none, trees) := by
  obtain rfl | ⟨letters, rest, _, rfl | ⟨items, rfl⟩⟩ := follows.cases <;> rfl

theorem Follows.title : Parse.title trees = some (false, trees) := by
  obtain rfl | ⟨letters, rest, _, rfl | ⟨items, rfl⟩⟩ := follows.cases <;> rfl

theorem Follows.reference (names : NameList) : Parse.reference names trees = none := by
  obtain rfl | ⟨letters, rest, head, rfl | ⟨items, rfl⟩⟩ := follows.cases
  · rfl
  · simp only [isHead, Bool.and_eq_true, Option.isNone_iff_eq_none] at head
    exact reference_word head.1.1.1.1.1 names rest
  · rfl

theorem Follows.referenceOrFirst (names : NameList) :
    Parse.referenceOrFirst names trees = some (0, trees) := by
  rw [Parse.referenceOrFirst, follows.reference]

theorem Follows.offset (limit : ℕ) :
    Parse.setting? "offset=" limit trees = some (none, trees) := by
  obtain rfl | ⟨letters, rest, head, rfl | ⟨items, rfl⟩⟩ := follows.cases
  · rfl
  · simp only [isHead, Bool.and_eq_true, Bool.not_eq_true'] at head
    simp only [Parse.setting?, startsWith_eq_isPrefixOf, head.1.1.1.1.2, Bool.false_eq_true,
      if_false]
  · rfl

theorem Follows.align (limit : ℕ) :
    Parse.setting? "align=" limit trees = some (none, trees) := by
  obtain rfl | ⟨letters, rest, head, rfl | ⟨items, rfl⟩⟩ := follows.cases
  · rfl
  · simp only [isHead, Bool.and_eq_true, Bool.not_eq_true'] at head
    simp only [Parse.setting?, startsWith_eq_isPrefixOf, head.1.1.1.2, Bool.false_eq_true,
      if_false]
  · rfl

theorem Follows.listOf? {letters : String} (other : isHead letters = false) :
    Parse.listOf? letters trees = some (none, trees) := by
  obtain rfl | ⟨found, rest, head, rfl | ⟨items, rfl⟩⟩ := follows.cases
  · rfl
  · rfl
  · have ne : found ≠ letters := by
      rintro rfl
      rw [other] at head
      cases head
    simp [Parse.listOf?, ne]

end Follows

/-! ## References -/

/-- A tree refers to one of several things, by number or by name. -/
inductive Refers (names : NameList) : Tree → UInt32 → Prop
  | number {letters : String} {number : ℕ}
      (spelled : Numeral.natural? letters.toList = some number)
      (small : number < 0x100000000) : Refers names (.word letters) (UInt32.ofNat number)
  | name {letters : String} (known : some letters ∈ names) :
      Refers names (.name letters) (UInt32.ofNat (names.idxOf (some letters)))

/-- Trees refer to one of several things; without a tree it is the first. -/
inductive RefersOrFirst (names : NameList) : List Tree → UInt32 → Prop
  | given {tree : Tree} {index : UInt32} (refers : Refers names tree index) :
      RefersOrFirst names [tree] index
  | first : RefersOrFirst names [] 0

variable {names : NameList} {trees rest : List Tree} {tree : Tree} {index : UInt32}

theorem Refers.read (refers : Refers names tree index) (rest : List Tree) :
    Parse.reference names (tree :: rest) = some (index, rest) := by
  cases refers with
  | number spelled small =>
    simp [Parse.reference, Parse.name?, Parse.natural, Parse.next, Parse.given, Parse.require,
      bind, StateT.bind, pure, StateT.pure, spelled, small]
  | name known =>
    simp [Parse.reference, Parse.name?, Parse.require, bind, StateT.bind, pure, StateT.pure, known]

theorem Refers.whole (refers : Refers names tree index) :
    Parse.whole (Parse.reference names) [tree] = some index := by
  rw [Parse.whole, refers.read]

theorem Refers.readOrFirst (refers : Refers names tree index) (rest : List Tree) :
    Parse.referenceOrFirst names (tree :: rest) = some (index, rest) := by
  rw [Parse.referenceOrFirst, refers.read]

/-- A reference may be left out where what follows is not taken for it. -/
theorem RefersOrFirst.read (refers : RefersOrFirst names trees index)
    (other : Parse.reference names rest = none) :
    Parse.referenceOrFirst names (trees ++ rest) = some (index, rest) := by
  cases refers with
  | given refers => exact refers.readOrFirst rest
  | first => rw [List.nil_append, Parse.referenceOrFirst, other]

/-! ## Places in memory -/

/-- Trees give a number below a limit after a label, or nothing. -/
inductive Setting (label : String) (limit : ℕ) : List Tree → Option ℕ → Prop
  | absent : Setting label limit [] none
  | given {digits : List Char} {number : ℕ} (spelled : Numeral.natural? digits = some number)
      (small : number < limit) :
      Setting label limit [.word (label ++ String.ofList digits)] (some number)

theorem Setting.read_given {label : String} {limit number : ℕ} {digits : List Char}
    (spelled : Numeral.natural? digits = some number) (small : number < limit) (rest : List Tree) :
    Parse.setting? label limit (.word (label ++ String.ofList digits) :: rest) =
      some (some number, rest) := by
  have starts : (label ++ String.ofList digits).startsWith label = true := by
    rw [String.startsWith_string_iff, String.toList_append]
    exact List.prefix_append _ _
  have behind : (label ++ String.ofList digits).toList.drop label.length = digits := by
    rw [String.toList_append, ← String.length_toList, List.drop_left, String.toList_ofList]
  simp only [Parse.setting?, starts, if_true, behind, spelled, small]

/--
How a place in memory is written: the memory, the offset and the alignment, each of which may be
left out. An alignment is written as a number of bytes.
-/
inductive MemoryPlace.Spells (names : NameList) (natural : UInt32) :
    MemoryPlace → List Tree → Prop
  | natural {memory offsets : List Tree} {index : UInt32} {offset : Option ℕ}
      (refers : RefersOrFirst names memory index)
      (shifted : Setting "offset=" 0x10000000000000000 offsets offset) :
      Spells names natural ⟨natural, UInt64.ofNat (offset.getD 0), index⟩ (memory ++ offsets)
  | aligned {memory offsets : List Tree} {index : UInt32} {offset : Option ℕ} {power : ℕ}
      {digits : List Char} (refers : RefersOrFirst names memory index)
      (shifted : Setting "offset=" 0x10000000000000000 offsets offset) (small : power < 32)
      (spelled : Numeral.natural? digits = some (2 ^ power)) :
      Spells names natural ⟨UInt32.ofNat power, UInt64.ofNat (offset.getD 0), index⟩
        (memory ++ offsets ++ [.word ("align=" ++ String.ofList digits)])

/-- A setting is no number, so it is not taken for a reference. -/
theorem natural?_offset (digits : List Char) :
    Numeral.natural? ("offset=" ++ String.ofList digits).toList = none := by
  rw [String.toList_append]
  rfl

theorem natural?_align (digits : List Char) :
    Numeral.natural? ("align=" ++ String.ofList digits).toList = none := by
  rw [String.toList_append]
  rfl

theorem offset_align (digits : List Char) (limit : ℕ) (rest : List Tree) :
    Parse.setting? "offset=" limit (.word ("align=" ++ String.ofList digits) :: rest) =
      some (none, .word ("align=" ++ String.ofList digits) :: rest) := by
  have other : ("align=" ++ String.ofList digits).startsWith "offset=" = false := by
    rw [String.startsWith_string_eq_false_iff, String.toList_append]
    simp
  simp only [Parse.setting?, other, Bool.false_eq_true, if_false]

theorem Setting.read_offset {limit : ℕ} {offset : Option ℕ}
    (setting : Setting "offset=" limit trees offset)
    (other : Parse.setting? "offset=" limit rest = some (none, rest)) :
    Parse.setting? "offset=" limit (trees ++ rest) = some (offset, rest) := by
  cases setting with
  | absent => exact other
  | given spelled small => exact Setting.read_given spelled small rest

theorem Setting.reference {limit : ℕ} {offset : Option ℕ}
    (setting : Setting "offset=" limit trees offset)
    (other : Parse.reference names rest = none) :
    Parse.reference names (trees ++ rest) = none := by
  cases setting with
  | absent => exact other
  | given spelled small => exact reference_word (natural?_offset _) names rest

theorem MemoryPlace.Spells.read {program : Names} {natural : UInt32} {place : MemoryPlace}
    (spells : MemoryPlace.Spells program.memories natural place trees) (follows : Follows rest) :
    Parse.place program natural (trees ++ rest) = some (place, rest) := by
  cases spells with
  | natural refers shifted =>
    rw [List.append_assoc, Parse.place,
      Parse.bind_of_some (refers.read (shifted.reference (follows.reference _))),
      Parse.bind_of_some (shifted.read_offset (follows.offset _)),
      Parse.bind_of_some (follows.align _)]
    rfl
  | @aligned memory offsets index offset power digits refers shifted small spelled =>
    have align : Parse.setting? "align=" 0x100000000 _ = _ :=
      Setting.read_given spelled (Nat.pow_lt_pow_right (by decide) small) rest
    -- The alignment is not taken for the offset, and neither of them for the memory.
    have behind := offset_align digits 0x10000000000000000 rest
    rw [List.append_assoc, List.append_assoc, List.singleton_append, Parse.place,
      Parse.bind_of_some (refers.read
        (shifted.reference (reference_word (natural?_align digits) _ rest))),
      Parse.bind_of_some (shifted.read_offset behind), Parse.bind_of_some align]
    simp [Parse.require, Nat.one_shiftLeft, bind, StateT.bind, pure, StateT.pure]

/-! ## Plain instructions -/

section Scope

variable {scope : CodeScope}

theorem op_of_not_mem {name : String} (other : name ∉ plainNames) :
    Parse.op scope name = Parse.listedOp scope.program name := by
  simp only [plainNames, List.mem_cons, List.not_mem_nil, or_false, not_or] at other
  unfold Parse.op
  split
  any_goals simp only [not_true_eq_false, false_and, and_false] at other
  rfl

theorem instruction_of_not_mem {name : String} (other : name ∉ controlNames) :
    Parse.instruction scope name = (do return .plain (.op (← Parse.op scope name))) := by
  simp only [controlNames, List.mem_cons, List.not_mem_nil, or_false, not_or] at other
  unfold Parse.instruction
  split
  any_goals simp only [not_true_eq_false, false_and, and_false] at other
  rfl

/-- Instructions that are nothing but their name. -/
def bareOps : List (String × Op) := [("nop", .nop), ("drop", .drop), ("ref.is_null", .refIsNull)]

/-- Instructions that name one thing: what they may name, and what they are with its index. -/
def byReference (scope : CodeScope) : List (String × NameList × (UInt32 → Op)) :=
  [("local.get", scope.locals, .localGet), ("local.set", scope.locals, .localSet),
    ("local.tee", scope.locals, .localTee), ("global.get", scope.program.globals, .globalGet),
    ("global.set", scope.program.globals, .globalSet),
    ("data.drop", scope.program.data, .dataDrop), ("elem.drop", scope.program.elements, .elemDrop),
    ("ref.func", scope.program.functions, .refFunc)]

/-- Instructions that name one thing, or none for the first. -/
def byReferenceOrFirst (scope : CodeScope) : List (String × NameList × (UInt32 → Op)) :=
  [("table.get", scope.program.tables, .tableGet), ("table.set", scope.program.tables, .tableSet),
    ("memory.size", scope.program.memories, .memorySize),
    ("memory.grow", scope.program.memories, .memoryGrow),
    ("memory.fill", scope.program.memories, .memoryFill),
    ("table.grow", scope.program.tables, .tableGrow),
    ("table.size", scope.program.tables, .tableSize),
    ("table.fill", scope.program.tables, .tableFill)]

/-- Instructions that name a segment and, before it, what it fills, or nothing for the first. -/
def bySegment (scope : CodeScope) :
    List (String × NameList × NameList × (UInt32 → UInt32 → Op)) :=
  [("memory.init", scope.program.data, scope.program.memories, .memoryInit),
    ("table.init", scope.program.elements, scope.program.tables, .tableInit)]

/-- Instructions that name what is copied to and from, or nothing for the first thing. -/
def byCopy (scope : CodeScope) : List (String × NameList × (UInt32 → UInt32 → Op)) :=
  [("memory.copy", scope.program.memories, .memoryCopy),
    ("table.copy", scope.program.tables, .tableCopy)]

/-- How a plain instruction is written: its name, and what follows its name. -/
inductive Op.Spells (scope : CodeScope) : Op → String → List Tree → Prop
  | bare {name : String} {op : Op} (listed : (name, op) ∈ bareOps) : Spells scope op name []
  | select : Spells scope (.select none) "select" []
  | selectOf {tree : Tree} {type : ValType} (named : parseValType tree = some type) :
      Spells scope (.select (some type)) "select" [.list [.word "result", tree]]
  | reference {name : String} {names : NameList} {make : UInt32 → Op} {tree : Tree}
      {index : UInt32} (listed : (name, names, make) ∈ byReference scope)
      (refers : Refers names tree index) : Spells scope (make index) name [tree]
  | referenceOrFirst {name : String} {names : NameList} {make : UInt32 → Op} {trees : List Tree}
      {index : UInt32} (listed : (name, names, make) ∈ byReferenceOrFirst scope)
      (refers : RefersOrFirst names trees index) : Spells scope (make index) name trees
  | segment {name : String} {segments things : NameList} {make : UInt32 → UInt32 → Op}
      {first second : Tree} {thing index : UInt32}
      (listed : (name, segments, things, make) ∈ bySegment scope)
      (filled : Refers things first thing) (refers : Refers segments second index) :
      Spells scope (make index thing) name [first, second]
  | segmentOfFirst {name : String} {segments things : NameList} {make : UInt32 → UInt32 → Op}
      {tree : Tree} {index : UInt32} (listed : (name, segments, things, make) ∈ bySegment scope)
      (refers : Refers segments tree index) : Spells scope (make index 0) name [tree]
  | copy {name : String} {names : NameList} {make : UInt32 → UInt32 → Op} {first second : Tree}
      {target source : UInt32} (listed : (name, names, make) ∈ byCopy scope)
      (goal : Refers names first target) (origin : Refers names second source) :
      Spells scope (make target source) name [first, second]
  | copyOfFirst {name : String} {names : NameList} {make : UInt32 → UInt32 → Op}
      (listed : (name, names, make) ∈ byCopy scope) : Spells scope (make 0 0) name []
  | i32Const {letters : String} {number : ℤ}
      (spelled : Numeral.integer? 32 letters.toList = some number) :
      Spells scope (.i32Const (Int32.ofInt number).toUInt32) "i32.const" [.word letters]
  | i64Const {letters : String} {number : ℤ}
      (spelled : Numeral.integer? 64 letters.toList = some number) :
      Spells scope (.i64Const (Int64.ofInt number).toUInt64) "i64.const" [.word letters]
  | f32Const {letters : String} {number : Binary32}
      (spelled : Numeral.binary32? letters.toList = some number) :
      Spells scope (.f32Const number.bits) "f32.const" [.word letters]
  | f64Const {letters : String} {number : Binary64}
      (spelled : Numeral.binary64? letters.toList = some number) :
      Spells scope (.f64Const number.bits) "f64.const" [.word letters]
  | refNullFunc : Spells scope (.refNull .func) "ref.null" [.word "func"]
  | refNullHost : Spells scope (.refNull .host) "ref.null" [.word "extern"]
  | load {form : Load} {place : MemoryPlace} {trees : List Tree}
      (spells : MemoryPlace.Spells scope.program.memories form.sizeLog place trees) :
      Spells scope (.load form place) form.name trees
  | save {form : Save} {place : MemoryPlace} {trees : List Tree}
      (spells : MemoryPlace.Spells scope.program.memories form.sizeLog place trees) :
      Spells scope (.save form place) form.name trees
  | numeric {operator : Operator} : Spells scope (.numeric operator) operator.name []

section Listed

variable (scope : CodeScope)

theorem op_bareOps : ∀ item ∈ bareOps, Parse.op scope item.1 = pure item.2 := by
  simp only [bareOps, List.forall_mem_cons]
  exact ⟨rfl, rfl, rfl, nofun⟩

theorem op_byReference : ∀ item ∈ byReference scope,
    Parse.op scope item.1 = (do return item.2.2 (← Parse.reference item.2.1)) := by
  simp only [byReference, List.forall_mem_cons]
  exact ⟨rfl, rfl, rfl, rfl, rfl, rfl, rfl, rfl, nofun⟩

theorem op_byReferenceOrFirst : ∀ item ∈ byReferenceOrFirst scope,
    Parse.op scope item.1 = (do return item.2.2 (← Parse.referenceOrFirst item.2.1)) := by
  simp only [byReferenceOrFirst, List.forall_mem_cons]
  exact ⟨rfl, rfl, rfl, rfl, rfl, rfl, rfl, rfl, nofun⟩

theorem op_bySegment : ∀ item ∈ bySegment scope,
    Parse.op scope item.1 = (do
      let (segment, thing) ← Parse.segment item.2.1 item.2.2.1
      return item.2.2.2 segment thing) := by
  simp only [bySegment, List.forall_mem_cons]
  exact ⟨rfl, rfl, nofun⟩

theorem op_byCopy : ∀ item ∈ byCopy scope,
    Parse.op scope item.1 = (do
      let (target, source) ← Parse.copied item.2.1
      return item.2.2 target source) := by
  simp only [byCopy, List.forall_mem_cons]
  exact ⟨rfl, rfl, nofun⟩

end Listed

/-- A plain instruction has a name in one of the lists, or is an operator. -/
theorem Op.Spells.known {op : Op} {name : String} {trees : List Tree}
    (spells : Op.Spells scope op name trees) :
    name ∈ listedNames ∨ ∃ operator : Operator, name = operator.name := by
  have bare : ∀ item ∈ bareOps, item.1 ∈ plainNames := by
    simp [bareOps, plainNames]
  have one : ∀ item ∈ byReference scope, item.1 ∈ plainNames := by
    simp [byReference, plainNames]
  have first : ∀ item ∈ byReferenceOrFirst scope, item.1 ∈ plainNames := by
    simp [byReferenceOrFirst, plainNames]
  have segment : ∀ item ∈ bySegment scope, item.1 ∈ plainNames := by
    simp [bySegment, plainNames]
  have copy : ∀ item ∈ byCopy scope, item.1 ∈ plainNames := by
    simp [byCopy, plainNames]
  have others : ∀ name ∈ ["select", "i32.const", "i64.const", "f32.const", "f64.const",
      "ref.null"], name ∈ plainNames := by
    simp [plainNames]
  cases spells with
  | bare listed => exact .inl (mem_listed_of_plain (bare _ listed))
  | reference listed => exact .inl (mem_listed_of_plain (one _ listed))
  | referenceOrFirst listed => exact .inl (mem_listed_of_plain (first _ listed))
  | segment listed | segmentOfFirst listed =>
    exact .inl (mem_listed_of_plain (segment _ listed))
  | copy listed | copyOfFirst listed => exact .inl (mem_listed_of_plain (copy _ listed))
  | select | selectOf | i32Const | i64Const | f32Const | f64Const | refNullFunc | refNullHost =>
    exact .inl (mem_listed_of_plain (others _ (by simp)))
  | load => exact .inl (mem_listed_of_load _)
  | save => exact .inl (mem_listed_of_save _)
  | numeric => exact .inr ⟨_, rfl⟩

theorem Op.Spells.not_control {op : Op} {name : String} {trees : List Tree}
    (spells : Op.Spells scope op name trees) : name ∉ controlNames := by
  obtain known | ⟨operator, rfl⟩ := spells.known
  · exact fun control => List.disjoint_of_nodup_append names_nodup control known
  · exact fun control => operator_ne operator (List.mem_append_left _ control) rfl

theorem Op.Spells.isHead {op : Op} {name : String} {trees : List Tree}
    (spells : Op.Spells scope op name trees) : isHead name = true := by
  obtain known | ⟨operator, rfl⟩ := spells.known
  · exact isHead_of_mem (List.mem_append_right _ known)
  · exact isHead_operator operator

theorem Follows.listsOf {rest : List Tree} (follows : Follows rest) (fuel : ℕ) :
    Parse.listsOf "result" fuel rest = some ([], rest) := by
  cases fuel with
  | zero => rfl
  | succ fuel =>
    rw [Parse.listsOf, Parse.bind_of_some (follows.listOf? (by decide))]
    rfl

theorem chosenType_given {tree : Tree} {type : ValType} {rest : List Tree}
    (named : parseValType tree = some type) (follows : Follows rest) :
    Parse.chosenType (.list [.word "result", tree] :: rest) = some (some type, rest) := by
  have groups : Parse.lists "result" (.list [.word "result", tree] :: rest) =
      some ([[tree]], rest) := by
    have first : Parse.listOf? "result" (.list [.word "result", tree] :: rest) =
        some (some [tree], rest) := rfl
    rw [Parse.lists, List.length_cons, Parse.listsOf, Parse.bind_of_some first]
    exact Parse.map_of_some ([tree] :: ·) (follows.listsOf rest.length)
  rw [Parse.chosenType, Parse.bind_of_some groups]
  simp [Parse.given, named, bind, StateT.bind, pure, StateT.pure]

theorem Follows.chosenType {rest : List Tree} (follows : Follows rest) :
    Parse.chosenType rest = some (none, rest) := by
  have groups : Parse.lists "result" rest = some ([], rest) := follows.listsOf rest.length
  rw [Parse.chosenType, Parse.bind_of_some groups]
  rfl

/-- A tree that refers to one of several things refers to one of others as well, or to none. -/
theorem Refers.elsewhere {names : NameList} {tree : Tree} {index : UInt32}
    (refers : Refers names tree index) (others : NameList) :
    (∃ other, Refers others tree other) ∨
      ∀ rest, Parse.reference others (tree :: rest) = none := by
  cases refers with
  | number spelled small => exact .inl ⟨_, .number spelled small⟩
  | @name letters known =>
    by_cases found : some letters ∈ others
    · exact .inl ⟨_, .name found⟩
    · refine .inr fun rest => ?_
      simp [Parse.reference, Parse.name?, Parse.require, Parse.refuse, bind, StateT.bind, found]

theorem segment_given {segments things : NameList} {first second : Tree} {thing index : UInt32}
    (filled : Refers things first thing) (refers : Refers segments second index)
    (rest : List Tree) :
    Parse.segment segments things (first :: second :: rest) = some ((index, thing), rest) := by
  have both : (do return (← Parse.reference things, ← Parse.reference segments) : Parse _)
      (first :: second :: rest) = some ((thing, index), rest) := by
    rw [Parse.bind_of_some (filled.read _)]
    exact Parse.map_of_some (thing, ·) (refers.read rest)
  rw [Parse.segment, both]

theorem segment_first {segments things : NameList} {tree : Tree} {index : UInt32}
    {rest : List Tree} (refers : Refers segments tree index) (follows : Follows rest) :
    Parse.segment segments things (tree :: rest) = some ((index, 0), rest) := by
  have lacking : (do return (← Parse.reference things, ← Parse.reference segments) : Parse _)
      (tree :: rest) = none := by
    -- The tree may do as well for the thing that is filled, but then no segment follows it.
    obtain ⟨other, found⟩ | missing := refers.elsewhere things
    · rw [Parse.bind_of_some (found.read rest)]
      exact Parse.bind_of_none (follows.reference segments)
    · exact Parse.bind_of_none (missing rest)
  rw [Parse.segment, lacking, refers.read]
  rfl

theorem copied_given {names : NameList} {first second : Tree} {target source : UInt32}
    (goal : Refers names first target) (origin : Refers names second source) (rest : List Tree) :
    Parse.copied names (first :: second :: rest) = some ((target, source), rest) := by
  rw [Parse.copied, goal.read]
  dsimp only
  rw [origin.read]
  rfl

theorem Follows.copied {rest : List Tree} (follows : Follows rest) (names : NameList) :
    Parse.copied names rest = some ((0, 0), rest) := by
  rw [Parse.copied, follows.reference]

theorem numeral_word {α : Type} {read : List Char → Option α} {letters : String} {value : α}
    (spelled : read letters.toList = some value) (rest : List Tree) :
    Parse.numeral read (.word letters :: rest) = some (value, rest) := by
  have next : Parse.next (.word letters :: rest) = some (.word letters, rest) := rfl
  rw [Parse.numeral, Parse.bind_of_some next]
  simp [Parse.given, spelled, pure, StateT.pure]

theorem listedOp_load {form : Load} {place : MemoryPlace} {trees rest : List Tree}
    (spells : MemoryPlace.Spells scope.program.memories form.sizeLog place trees)
    (follows : Follows rest) :
    Parse.listedOp scope.program form.name (trees ++ rest) = some (.load form place, rest) := by
  rw [Parse.listedOp, find?_load]
  exact Parse.map_of_some (Op.load form) (spells.read follows)

theorem listedOp_save {form : Save} {place : MemoryPlace} {trees rest : List Tree}
    (spells : MemoryPlace.Spells scope.program.memories form.sizeLog place trees)
    (follows : Follows rest) :
    Parse.listedOp scope.program form.name (trees ++ rest) = some (.save form place, rest) := by
  have other : Load.listed.find? (·.name = form.name) = none := by
    cases form <;> rfl
  rw [Parse.listedOp, other, find?_save]
  exact Parse.map_of_some (Op.save form) (spells.read follows)

theorem listedOp_numeric (operator : Operator) (rest : List Tree) :
    Parse.listedOp scope.program operator.name rest = some (.numeric operator, rest) := by
  have load : Load.listed.find? (·.name = operator.name) = none := by
    refine List.find?_eq_none.mpr fun form _ same => ?_
    exact operator_ne operator (List.mem_append_right _ (mem_listed_of_load form))
      (of_decide_eq_true same).symm
  have save : Save.listed.find? (·.name = operator.name) = none := by
    refine List.find?_eq_none.mpr fun form _ same => ?_
    exact operator_ne operator (List.mem_append_right _ (mem_listed_of_save form))
      (of_decide_eq_true same).symm
  have found : (Operator.listed ++ Operator.saturations).find? (·.name = operator.name) =
      some operator := find?_operators operator
  rw [Parse.listedOp, load, save, found]
  rfl

theorem Op.Spells.read {op : Op} {name : String} {trees rest : List Tree}
    (spells : Op.Spells scope op name trees) (follows : Follows rest) :
    Parse.op scope name (trees ++ rest) = some (op, rest) := by
  cases spells with
  | bare listed =>
    rw [op_bareOps scope _ listed]
    rfl
  | select => exact Parse.map_of_some Op.select follows.chosenType
  | selectOf named => exact Parse.map_of_some Op.select (chosenType_given named follows)
  | @reference name names make tree index listed refers =>
    rw [op_byReference scope _ listed]
    exact Parse.map_of_some make (refers.read rest)
  | @referenceOrFirst name names make trees index listed refers =>
    rw [op_byReferenceOrFirst scope _ listed]
    exact Parse.map_of_some make (refers.read (follows.reference names))
  | segment listed filled refers =>
    rw [op_bySegment scope _ listed]
    exact Parse.bind_of_some (segment_given filled refers rest)
  | segmentOfFirst listed refers =>
    rw [op_bySegment scope _ listed]
    exact Parse.bind_of_some (segment_first refers follows)
  | copy listed goal origin =>
    rw [op_byCopy scope _ listed]
    exact Parse.bind_of_some (copied_given goal origin rest)
  | copyOfFirst listed =>
    rw [op_byCopy scope _ listed]
    exact Parse.bind_of_some (follows.copied _)
  | i32Const spelled =>
    exact Parse.map_of_some (fun number => Op.i32Const (Int32.ofInt number).toUInt32)
      (numeral_word spelled rest)
  | i64Const spelled =>
    exact Parse.map_of_some (fun number => Op.i64Const (Int64.ofInt number).toUInt64)
      (numeral_word spelled rest)
  | f32Const spelled =>
    exact Parse.map_of_some (fun number => Op.f32Const number.bits) (numeral_word spelled rest)
  | f64Const spelled =>
    exact Parse.map_of_some (fun number => Op.f64Const number.bits) (numeral_word spelled rest)
  | refNullFunc => rfl
  | refNullHost => rfl
  | load spells =>
    rw [op_of_not_mem (load_not_plain _)]
    exact listedOp_load spells follows
  | save spells =>
    rw [op_of_not_mem (save_not_plain _)]
    exact listedOp_save spells follows
  | numeric =>
    rw [op_of_not_mem fun plain => operator_ne _ (List.mem_append_right _
      (mem_listed_of_plain plain)) rfl]
    exact listedOp_numeric _ rest

end Scope

end TableKernels.Wasm.Text
