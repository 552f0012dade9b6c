import TableKernels.Proofs.Wasm.Text.Operations

/-!
# Reading code

How code is written in trees. Instructions stand one after another, or an instruction stands in a
list before those that give its operands. Blocks may have labels, and what refers to a block may do
so by its label. Whatever trees spell code, they are assembled to the bytes of the code.
-/

namespace TableKernels.Wasm.Text

variable {scope : CodeScope} {labels : NameList} {trees rest : List Tree} {tree : Tree}

/-! ## Types -/

/-- How the type of a block is written: not at all, by its result, or by reference. -/
inductive BlockType.Spells (scope : CodeScope) : BlockType → List Tree → Prop
  | empty : Spells scope .empty []
  | result {tree : Tree} {type : ValType} (named : parseValType tree = some type) :
      Spells scope (.result type) [.list [.word "result", tree]]
  | function {tree : Tree} {index : UInt32} (refers : Refers scope.program.types tree index) :
      Spells scope (.function index) [.list [.word "type", tree]]

theorem Follows.isNext (follows : Follows rest) : Signature.isNext rest = false := by
  obtain rfl | ⟨letters, rest, head, rfl | ⟨items, rfl⟩⟩ := follows.cases
  · rfl
  · rfl
  · simp only [isHead, Bool.and_eq_true, bne_iff_ne] at head
    simp [Signature.isNext, head.1.2, head.2]

theorem Follows.namelessUse (follows : Follows rest) (names : Names) :
    Parse.namelessUse names rest = some (⟨none, none⟩, rest) := by
  have use : TypeUse.parse names rest = some (⟨none, none⟩, rest) := by
    rw [TypeUse.parse, Parse.bind_of_some (follows.listOf? (by decide))]
    simp [follows.isNext, bind, StateT.bind, pure, StateT.pure, get, getThe, MonadStateOf.get,
      StateT.get]
  rw [Parse.namelessUse, Parse.bind_of_some use]
  rfl

theorem namelessUse_reference {names : Names} {index : UInt32}
    (refers : Refers names.types tree index) (follows : Follows rest) :
    Parse.namelessUse names (.list [.word "type", tree] :: rest) =
      some (⟨some index, none⟩, rest) := by
  have listed : Parse.listOf? "type" (.list [.word "type", tree] :: rest) =
      some (some [tree], rest) := rfl
  have use : TypeUse.parse names (.list [.word "type", tree] :: rest) =
      some (⟨some index, none⟩, rest) := by
    rw [TypeUse.parse, Parse.bind_of_some listed]
    simp [refers.whole, Parse.given, follows.isNext, bind, StateT.bind, pure, StateT.pure, get,
      getThe, MonadStateOf.get, StateT.get]
  rw [Parse.namelessUse, Parse.bind_of_some use]
  rfl

theorem Follows.parseFrom (follows : Follows rest) (signature : Signature) :
    signature.parseFrom rest = some (signature, rest) := by
  obtain rfl | ⟨letters, rest, head, rfl | ⟨items, rfl⟩⟩ := follows.cases
  · rfl
  · rfl
  · simp only [isHead, Bool.and_eq_true, bne_iff_ne] at head
    have other : signature.add? (.list (.word letters :: items)) = some none := by
      simp [Signature.add?, head.1.2, head.2]
    rw [Signature.parseFrom, other]

theorem namelessUse_result {names : Names} {type : ValType}
    (named : parseValType tree = some type) (follows : Follows rest) :
    Parse.namelessUse names (.list [.word "result", tree] :: rest) =
      some (⟨none, some ⟨[], [type]⟩⟩, rest) := by
  have other : Parse.listOf? "type" (.list [.word "result", tree] :: rest) =
      some (none, .list [.word "result", tree] :: rest) := rfl
  have added : Signature.empty.add? (.list [.word "result", tree]) =
      some (some ⟨[], [type]⟩) := by
    simp [Signature.add?, named, Signature.empty]
  have signature : Signature.parse (.list [.word "result", tree] :: rest) =
      some (⟨[], [type]⟩, rest) := by
    rw [Signature.parse, Signature.parseFrom, added]
    exact follows.parseFrom _
  have use : TypeUse.parse names (.list [.word "result", tree] :: rest) =
      some (⟨none, some ⟨[], [type]⟩⟩, rest) := by
    rw [TypeUse.parse, Parse.bind_of_some other]
    simp [Signature.isNext, signature, bind, StateT.bind, pure, StateT.pure, get, getThe,
      MonadStateOf.get, StateT.get]
  rw [Parse.namelessUse, Parse.bind_of_some use]
  rfl

/-- What is written about the type of a block stands for the type. -/
theorem BlockType.Spells.read {type : BlockType} (spells : BlockType.Spells scope type trees) :
    ∃ use, Written.blockType? scope.types use = some type ∧
      ∀ rest, Follows rest →
        Parse.namelessUse scope.program (trees ++ rest) = some (use, rest) := by
  cases spells with
  | empty => exact ⟨⟨none, none⟩, rfl, fun _ follows => follows.namelessUse _⟩
  | result named => exact ⟨⟨none, some ⟨[], [_]⟩⟩, rfl, fun _ => namelessUse_result named⟩
  | function refers => exact ⟨⟨some _, none⟩, rfl, fun _ => namelessUse_reference refers⟩

/-- How the label of a block is written, if it has one. -/
def labelTrees (label : Option String) : List Tree := (label.map Tree.name).toList

theorem titled_label {type : BlockType} (spells : BlockType.Spells scope type trees)
    (follows : Follows rest) (label : Option String) :
    Parse.titled (labelTrees label ++ (trees ++ rest)) = some (label, trees ++ rest) := by
  have title : Parse.title (trees ++ rest) = some (false, trees ++ rest) := by
    cases spells with
    | empty => exact follows.title
    | result | function => rfl
  have name : Parse.name? (labelTrees label ++ (trees ++ rest)) = some (label, trees ++ rest) := by
    cases label with
    | some letters => rfl
    | none =>
      cases spells with
      | empty => exact follows.name?
      | result | function => rfl
  rw [Parse.titled, Parse.bind_of_some name, Parse.bind_of_some title]
  rfl

/-- The beginning of a block is read with its label and its type. -/
theorem exists_opening {type : BlockType} (spells : BlockType.Spells scope type trees)
    (code : UInt8) (label : Option String) :
    ∃ written : Written,
      (∀ labels, written.link? scope.types labels =
        some (code :: type.encode, label :: labels)) ∧
        ∀ rest, Follows rest → Parse.opening scope code (labelTrees label ++ trees ++ rest) =
          some (written, rest) := by
  obtain ⟨use, means, read⟩ := spells.read
  refine ⟨.opening code use label, fun labels => ?_, fun rest follows => ?_⟩
  · rw [Written.link?, means]
    rfl
  · rw [List.append_assoc, Parse.opening, Parse.bind_of_some (titled_label spells follows label)]
    exact Parse.map_of_some (Written.opening code · label) (read rest follows)

/-! ## Instructions without blocks -/

/-- Instructions that call through a table: their codes, and what they are. -/
def indirectForms : List (String × UInt8 × (UInt32 → UInt32 → Instr)) :=
  [("call_indirect", 0x11, .callIndirect), ("return_call_indirect", 0x13, .returnCallIndirect)]

/-- How an instruction without a block is written: its name, and what follows its name. -/
inductive Instr.Spells (scope : CodeScope) (labels : NameList) :
    Instr → String → List Tree → Prop
  | op {op : Op} {name : String} {trees : List Tree} (spells : Op.Spells scope op name trees) :
      Spells scope labels (.op op) name trees
  | unreachable : Spells scope labels .unreachable "unreachable" []
  | ret : Spells scope labels .ret "return" []
  | br {tree : Tree} {depth : UInt32} (refers : Refers labels tree depth) :
      Spells scope labels (.br depth) "br" [tree]
  | brIf {tree : Tree} {depth : UInt32} (refers : Refers labels tree depth) :
      Spells scope labels (.brIf depth) "br_if" [tree]
  | brTable {trees : List Tree} {tree : Tree} {targets : List UInt32} {default : UInt32}
      (refer : List.Forall₂ (Refers labels) trees targets)
      (otherwise : Refers labels tree default) :
      Spells scope labels (.brTable targets default) "br_table" (trees ++ [tree])
  | call {tree : Tree} {index : UInt32} (refers : Refers scope.program.functions tree index) :
      Spells scope labels (.call index) "call" [tree]
  | returnCall {tree : Tree} {index : UInt32}
      (refers : Refers scope.program.functions tree index) :
      Spells scope labels (.returnCall index) "return_call" [tree]
  | indirect {name : String} {code : UInt8} {make : UInt32 → UInt32 → Instr} {trees : List Tree}
      {tree : Tree} {type table : UInt32} (listed : (name, code, make) ∈ indirectForms)
      (source : RefersOrFirst scope.program.tables trees table)
      (refers : Refers scope.program.types tree type) :
      Spells scope labels (make type table) name (trees ++ [.list [.word "type", tree]])

variable {instr : Instr} {name : String}

theorem Instr.Spells.known (spells : Instr.Spells scope labels instr name trees) :
    name ∈ controlNames ++ listedNames ∨ ∃ operator : Operator, name = operator.name := by
  have table : ∀ form ∈ indirectForms, form.1 ∈ controlNames := by
    simp [indirectForms, controlNames]
  have others : ∀ name ∈ ["unreachable", "return", "br", "br_if", "br_table", "call",
      "return_call"], name ∈ controlNames := by
    simp [controlNames]
  cases spells with
  | op spells => exact spells.known.imp_left (List.mem_append_right _)
  | indirect listed => exact .inl (List.mem_append_left _ (table _ listed))
  | unreachable | ret | br | brIf | brTable | call | returnCall =>
    exact .inl (List.mem_append_left _ (others _ (by simp)))

theorem Instr.Spells.isHead (spells : Instr.Spells scope labels instr name trees) :
    isHead name = true := by
  obtain known | ⟨operator, rfl⟩ := spells.known
  · exact isHead_of_mem known
  · exact isHead_operator operator

/-- The names of the instructions that begin a block. -/
def blockNames : List String := ["block", "loop", "if"]

theorem Instr.Spells.not_block (spells : Instr.Spells scope labels instr name trees) :
    name ∉ blockNames := by
  have control : ∀ name ∈ blockNames, name ∈ controlNames := by
    simp [blockNames, controlNames]
  have table : ∀ form ∈ indirectForms, form.1 ∉ blockNames := by
    simp [indirectForms, blockNames]
  cases spells with
  | op spells => exact fun mem => spells.not_control (control _ mem)
  | indirect listed => exact table _ listed
  | unreachable | ret | br | brIf | brTable | call | returnCall => simp [blockNames]

theorem Refers.depth? {depth : UInt32} (refers : Refers labels tree depth) :
    Written.depth? labels tree = some depth := refers.whole

theorem mapM_depth? {targets : List UInt32}
    (refer : List.Forall₂ (Refers labels) trees targets) :
    trees.mapM (Written.depth? labels) = some targets := by
  induction refer with
  | nil => rfl
  | cons refers _ hyp => simp [refers.depth?, hyp]

/-- Whether a tree may be one of those that a choice refers to. -/
def Tree.isTarget : Tree → Bool
  | .word letters => (Numeral.natural? letters.toList).isSome
  | .name _ => true
  | _ => false

theorem Refers.isTarget {index : UInt32} (refers : Refers labels tree index) :
    tree.isTarget = true := by
  cases refers with
  | number spelled => simp [Tree.isTarget, spelled]
  | name => rfl

theorem Follows.takeWhile_isTarget (follows : Follows rest) :
    rest.takeWhile Tree.isTarget = [] := by
  obtain rfl | ⟨letters, rest, head, rfl | ⟨items, rfl⟩⟩ := follows.cases
  · rfl
  · simp only [Text.isHead, Bool.and_eq_true, Option.isNone_iff_eq_none] at head
    simp [Tree.isTarget, head.1.1.1.1.1]
  · rfl

theorem forall_isTarget {targets : List UInt32}
    (refer : List.Forall₂ (Refers labels) trees targets) :
    ∀ tree ∈ trees, tree.isTarget = true := by
  induction refer with
  | nil => nofun
  | cons refers _ hyp => exact List.forall_mem_cons.mpr ⟨refers.isTarget, hyp⟩

/-- All that a choice refers to is taken, and nothing of what follows. -/
theorem targets_append {targets : List UInt32}
    (refer : List.Forall₂ (Refers labels) trees targets) (present : trees ≠ [])
    (follows : Follows rest) : Parse.targets (trees ++ rest) = some (trees, rest) := by
  have taken : (trees ++ rest).takeWhile Tree.isTarget = trees := by
    rw [List.takeWhile_append_of_pos (forall_isTarget refer), follows.takeWhile_isTarget,
      List.append_nil]
  change (if ((trees ++ rest).takeWhile Tree.isTarget).isEmpty then none
    else some ((trees ++ rest).takeWhile Tree.isTarget,
      (trees ++ rest).drop ((trees ++ rest).takeWhile Tree.isTarget).length)) = _
  rw [taken, if_neg (by simpa using present), List.drop_left]

theorem instruction_indirectForms (scope : CodeScope) : ∀ form ∈ indirectForms,
    Parse.instruction scope form.1 = Parse.indirect scope form.2.1 := by
  simp only [indirectForms, List.forall_mem_cons]
  exact ⟨rfl, rfl, nofun⟩

theorem encode_indirectForms (type table : UInt32) : ∀ form ∈ indirectForms,
    (form.2.2 type table).encode = form.2.1 :: encodeIndex type ++ encodeIndex table := by
  simp only [indirectForms, List.forall_mem_cons]
  exact ⟨rfl, rfl, nofun⟩

theorem indirect_append {code : UInt8} {type table : UInt32}
    (source : RefersOrFirst scope.program.tables trees table)
    (refers : Refers scope.program.types tree type) (follows : Follows rest) :
    Parse.indirect scope code (trees ++ .list [.word "type", tree] :: rest) =
      some (.indirect code ⟨some type, none⟩ table, rest) := by
  have use := namelessUse_reference refers follows
  cases source with
  | given source =>
    have found := source.read (.list [.word "type", tree] :: rest)
    simp only [Parse.indirect, List.singleton_append, bind, StateT.bind, get, getThe,
      MonadStateOf.get, StateT.get, pure, Option.bind_some, found, set, MonadStateOf.set,
      StateT.set, use, StateT.pure]
  | first =>
    -- Without a table the type comes next, and a list refers to no table.
    have missing : Parse.reference scope.program.tables (.list [.word "type", tree] :: rest) =
        none := rfl
    simp only [Parse.indirect, List.nil_append, bind, StateT.bind, get, getThe, MonadStateOf.get,
      StateT.get, pure, Option.bind_some, missing, use, follows.referenceOrFirst, StateT.pure]

/-- An instruction is read as it is written, and stands for its own bytes. -/
theorem Instr.Spells.read (spells : Instr.Spells scope labels instr name trees) :
    ∃ written : Written, written.link? scope.types labels = some (instr.encode, labels) ∧
      ∀ rest, Follows rest →
        Parse.instruction scope name (trees ++ rest) = some (written, rest) := by
  cases spells with
  | @op op _ _ spells =>
    refine ⟨.plain (.op op), rfl, fun rest follows => ?_⟩
    rw [instruction_of_not_mem spells.not_control]
    exact Parse.map_of_some (Written.plain ∘ Instr.op) (spells.read follows)
  | unreachable => exact ⟨.plain .unreachable, rfl, fun _ _ => rfl⟩
  | ret => exact ⟨.plain .ret, rfl, fun _ _ => rfl⟩
  | @br tree _ refers =>
    refine ⟨.jump 0x0c tree, ?_, fun _ _ => rfl⟩
    rw [Written.link?, refers.depth?]
    rfl
  | @brIf tree _ refers =>
    refine ⟨.jump 0x0d tree, ?_, fun _ _ => rfl⟩
    rw [Written.link?, refers.depth?]
    rfl
  | @brTable trees tree targets default refer otherwise =>
    have all : List.Forall₂ (Refers labels) (trees ++ [tree]) (targets ++ [default]) :=
      List.rel_append refer (.cons otherwise .nil)
    refine ⟨.choice (trees ++ [tree]), ?_, fun rest follows => ?_⟩
    · simp [Written.link?, mapM_depth? all]
    · exact Parse.map_of_some Written.choice (targets_append all (by simp) follows)
  | call refers =>
    exact ⟨.plain (.call _), rfl, fun rest _ =>
      Parse.map_of_some (Written.plain ∘ Instr.call) (refers.read rest)⟩
  | returnCall refers =>
    exact ⟨.plain (.returnCall _), rfl, fun rest _ =>
      Parse.map_of_some (Written.plain ∘ Instr.returnCall) (refers.read rest)⟩
  | @indirect _ code make _ _ type table listed source refers =>
    refine ⟨.indirect code ⟨some type, none⟩ table, ?_, fun rest follows => ?_⟩
    · rw [encode_indirectForms type table _ listed]
      rfl
    · rw [instruction_indirectForms scope _ listed, List.append_assoc]
      exact indirect_append source refers follows

/-! ## Order and links -/

theorem sizeOfAll_append (first second : List Tree) :
    Tree.sizeOfAll (first ++ second) = Tree.sizeOfAll first + Tree.sizeOfAll second := by
  induction first with
  | nil => rw [List.nil_append, Tree.sizeOfAll, Nat.zero_add]
  | cons tree first hyp => rw [List.cons_append, Tree.sizeOfAll, Tree.sizeOfAll, hyp, Nat.add_assoc]

/-- Trees are put into the order of some instructions, given enough steps. -/
def FlattensTo (scope : CodeScope) (trees : List Tree) (code : List Written) : Prop :=
  ∀ fuel before, Tree.sizeOfAll trees ≤ fuel →
    Written.flattenFrom scope fuel before trees = some (code.reverse ++ before)

/-- The items of a list are put into the order of some instructions, given enough steps. -/
def FoldsTo (scope : CodeScope) (items : List Tree) (code : List Written) : Prop :=
  ∀ fuel before, Tree.sizeOfAll items ≤ fuel →
    Written.folded scope (Written.flattenFrom scope fuel) before items =
      some (code.reverse ++ before)

/--
Instructions stand for bytes inside blocks with labels, and lead into blocks with other labels,
whatever comes behind them.
-/
def LinksTo (types : List FuncType) (labels : NameList) (code : List Written) (bytes : Bytes)
    (after : NameList) : Prop :=
  ∀ more, Written.linkRun? types labels (code ++ more) =
    (Written.linkRun? types after more).map (bytes ++ ·)

variable {code more : List Written} {written : Written}

theorem FlattensTo.nil : FlattensTo scope [] [] := by
  intro fuel before _
  cases fuel <;> rfl

theorem FlattensTo.word {letters : String}
    (reads : Parse.instruction scope letters (trees ++ rest) = some (written, rest))
    (flattens : FlattensTo scope rest code) :
    FlattensTo scope (.word letters :: (trees ++ rest)) (written :: code) := by
  intro fuel before small
  rw [Tree.sizeOfAll, Tree.size, sizeOfAll_append] at small
  match fuel with
  | 0 => omega
  | fuel + 1 =>
    simp only [Written.flattenFrom, reads]
    rw [flattens fuel (written :: before) (by omega)]
    simp

theorem FlattensTo.list {items : List Tree} (folds : FoldsTo scope items code)
    (flattens : FlattensTo scope rest more) :
    FlattensTo scope (.list items :: rest) (code ++ more) := by
  intro fuel before small
  rw [Tree.sizeOfAll, Tree.size] at small
  match fuel with
  | 0 => omega
  | fuel + 1 =>
    simp only [Written.flattenFrom, folds fuel before (by omega)]
    rw [flattens fuel (code.reverse ++ before) (by omega)]
    simp

theorem FoldsTo.plain {letters : String} (other : letters ∉ blockNames)
    (reads : Parse.instruction scope letters (trees ++ rest) = some (written, rest))
    (flattens : FlattensTo scope rest code) :
    FoldsTo scope (.word letters :: (trees ++ rest)) (code ++ [written]) := by
  intro fuel before small
  rw [Tree.sizeOfAll, Tree.size, sizeOfAll_append] at small
  simp only [blockNames, List.mem_cons, List.not_mem_nil, or_false, not_or] at other
  simp only [Written.folded, reads, Option.bind_eq_bind, Option.bind_some]
  rw [flattens fuel before (by omega)]
  split
  · exact absurd rfl other.1
  · exact absurd rfl other.2.1
  · exact absurd rfl other.2.2
  · simp

/-- The kinds of blocks with one part: their codes, and what they are. -/
def blockForms : List (String × UInt8 × (BlockType → List Instr → Instr)) :=
  [("block", 0x02, .blockOf), ("loop", 0x03, .loopOf)]

theorem instruction_blockForms (scope : CodeScope) : ∀ form ∈ blockForms,
    Parse.instruction scope form.1 = Parse.opening scope form.2.1 := by
  simp only [blockForms, List.forall_mem_cons]
  exact ⟨rfl, rfl, nofun⟩

theorem encode_blockForms (type : BlockType) (body : List Instr) : ∀ form ∈ blockForms,
    (form.2.2 type body).encode = form.2.1 :: type.encode ++ encodeRun body ++ [endCode] := by
  simp only [blockForms, List.forall_mem_cons]
  exact ⟨rfl, rfl, nofun⟩

theorem FoldsTo.block {form : String × UInt8 × (BlockType → List Instr → Instr)}
    (listed : form ∈ blockForms)
    (reads : Parse.instruction scope form.1 (trees ++ rest) = some (written, rest))
    (flattens : FlattensTo scope rest code) :
    FoldsTo scope (.word form.1 :: (trees ++ rest)) (written :: code ++ [.ending]) := by
  intro fuel before small
  rw [Tree.sizeOfAll, Tree.size, sizeOfAll_append] at small
  simp only [blockForms, List.mem_cons, List.not_mem_nil, or_false] at listed
  have inner := flattens fuel (written :: before) (by omega)
  obtain rfl | rfl := listed <;>
    simp [Written.folded, reads, inner]

theorem LinksTo.nil (types : List FuncType) (labels : NameList) :
    LinksTo types labels [] [] labels := by
  intro more
  simp

theorem LinksTo.single {types : List FuncType} {after : NameList} {bytes : Bytes}
    (links : written.link? types labels = some (bytes, after)) :
    LinksTo types labels [written] bytes after := by
  intro more
  rw [List.singleton_append, Written.linkRun?, links]
  cases later : Written.linkRun? types after more <;> simp [later]

theorem LinksTo.append {types : List FuncType} {middle after : NameList} {bytes others : Bytes}
    (first : LinksTo types labels code bytes middle)
    (second : LinksTo types middle more others after) :
    LinksTo types labels (code ++ more) (bytes ++ others) after := by
  intro last
  rw [List.append_assoc, first, second, Option.map_map]
  congr 1
  funext later
  simp

/-! ## Blocks -/

/-- The second part of a branch, which is left out if it is empty. -/
def elseTrees (other : List Instr) (trees : List Tree) : List Tree :=
  if other.isEmpty then [] else .word "else" :: trees

/-- The second part of a folded branch, in a list that is left out if the part is empty. -/
def elseList (other : List Instr) (trees : List Tree) : List Tree :=
  if other.isEmpty then [] else [.list (.word "else" :: trees)]

/-- How the end of a block is written, which may repeat the label of the block. -/
def EndsAs (label : Option String) (trees : List Tree) : Prop :=
  trees = [.word "end"] ∨ trees = .word "end" :: labelTrees label

/-- Whether a tree may give an operand of a folded branch: a list that is not one of its parts. -/
def Tree.isOperand (tree : Tree) : Bool := tree.isList && !tree.begins "then"

/--
How code inside blocks with labels is written, the innermost label first. What is said about
instructions in a row is said about the first one and about the others.
-/
inductive SpellsCode (scope : CodeScope) : NameList → List Instr → List Tree → Prop
  | nil {labels : NameList} : SpellsCode scope labels [] []
  | plain {labels : NameList} {instr : Instr} {name : String} {trees more : List Tree}
      {code : List Instr} (spells : Instr.Spells scope labels instr name trees)
      (later : SpellsCode scope labels code more) :
      SpellsCode scope labels (instr :: code) (.word name :: (trees ++ more))
  /-- An instruction in a list with what comes before it. -/
  | folded {labels : NameList} {instr : Instr} {name : String} {trees operandTrees more : List Tree}
      {operands code : List Instr} (spells : Instr.Spells scope labels instr name trees)
      (before : SpellsCode scope labels operands operandTrees)
      (later : SpellsCode scope labels code more) :
      SpellsCode scope labels (operands ++ instr :: code)
        (.list (.word name :: (trees ++ operandTrees)) :: more)
  | block {labels : NameList} {label : Option String} {type : BlockType}
      {form : String × UInt8 × (BlockType → List Instr → Instr)}
      {typeTrees bodyTrees close more : List Tree} {body code : List Instr}
      (listed : form ∈ blockForms) (typed : BlockType.Spells scope type typeTrees)
      (inner : SpellsCode scope (label :: labels) body bodyTrees) (ends : EndsAs label close)
      (later : SpellsCode scope labels code more) :
      SpellsCode scope labels (form.2.2 type body :: code)
        (.word form.1 :: (labelTrees label ++ typeTrees ++ (bodyTrees ++ (close ++ more))))
  /-- A block in a list, which needs no end. -/
  | foldedBlock {labels : NameList} {label : Option String} {type : BlockType}
      {form : String × UInt8 × (BlockType → List Instr → Instr)}
      {typeTrees bodyTrees more : List Tree} {body code : List Instr}
      (listed : form ∈ blockForms) (typed : BlockType.Spells scope type typeTrees)
      (inner : SpellsCode scope (label :: labels) body bodyTrees)
      (later : SpellsCode scope labels code more) :
      SpellsCode scope labels (form.2.2 type body :: code)
        (.list (.word form.1 :: (labelTrees label ++ typeTrees ++ bodyTrees)) :: more)
  | branch {labels : NameList} {label : Option String} {type : BlockType}
      {typeTrees bodyTrees otherTrees close more : List Tree} {body other code : List Instr}
      (typed : BlockType.Spells scope type typeTrees)
      (inner : SpellsCode scope (label :: labels) body bodyTrees)
      (otherwise : SpellsCode scope (label :: labels) other otherTrees)
      (ends : EndsAs label close) (later : SpellsCode scope labels code more) :
      SpellsCode scope labels (.branch type body other :: code)
        (.word "if" :: (labelTrees label ++ typeTrees ++
          (bodyTrees ++ (elseTrees other otherTrees ++ (close ++ more)))))
  /-- A branch in a list, with its condition in front of its parts. -/
  | foldedBranch {labels : NameList} {label : Option String} {type : BlockType}
      {typeTrees conditionTrees bodyTrees otherTrees more : List Tree}
      {condition body other code : List Instr} (typed : BlockType.Spells scope type typeTrees)
      (before : SpellsCode scope labels condition conditionTrees)
      (lists : ∀ tree ∈ conditionTrees, tree.isOperand = true)
      (inner : SpellsCode scope (label :: labels) body bodyTrees)
      (otherwise : SpellsCode scope (label :: labels) other otherTrees)
      (later : SpellsCode scope labels code more) :
      SpellsCode scope labels (condition ++ .branch type body other :: code)
        (.list (.word "if" :: (labelTrees label ++ typeTrees ++ (conditionTrees ++
          .list (.word "then" :: bodyTrees) :: elseList other otherTrees))) :: more)

variable {instrs : List Instr}

theorem follows_word {letters : String} (head : isHead letters = true) (rest : List Tree) :
    Follows (.word letters :: rest) :=
  follows_cons (show (Tree.word letters).isNext = true from head) rest

theorem follows_list {letters : String} (head : isHead letters = true) (items rest : List Tree) :
    Follows (.list (.word letters :: items) :: rest) :=
  follows_cons (show (Tree.list (.word letters :: items)).isNext = true from head) rest

theorem isHead_of_control {letters : String} (known : letters ∈ controlNames) :
    isHead letters = true :=
  isHead_of_mem (List.mem_append_left _ known)

theorem isHead_blockForms {form : String × UInt8 × (BlockType → List Instr → Instr)}
    (listed : form ∈ blockForms) : isHead form.1 = true := by
  have all : ∀ form ∈ blockForms, form.1 ∈ controlNames := by
    simp [blockForms, controlNames]
  exact isHead_of_control (all form listed)

/-- The end of a block is read with its label, and leads out of the block. -/
theorem EndsAs.read {label : Option String} {close : List Tree} (ends : EndsAs label close)
    (scope : CodeScope) :
    ∃ written : Written,
      (∀ labels, written.link? scope.types (label :: labels) = some ([endCode], labels)) ∧
        ∃ after, close = .word "end" :: after ∧ ∀ rest, Follows rest →
          Parse.instruction scope "end" (after ++ rest) = some (written, rest) := by
  have reads {found : Option String} {after rest : List Tree}
      (name : Parse.name? (after ++ rest) = some (found, rest)) :
      Parse.instruction scope "end" (after ++ rest) =
        some (Written.closing endCode found, rest) :=
    Parse.map_of_some (Written.closing endCode) name
  obtain rfl | rfl := ends
  · exact ⟨.closing endCode none, fun _ => rfl, [], rfl, fun rest follows => reads follows.name?⟩
  · refine ⟨.closing endCode label, fun labels => ?_, _, rfl, fun rest follows => reads ?_⟩
    · simp [Written.link?]
    · cases label with
      | none => exact follows.name?
      | some letters => rfl

/-- The second part of a branch with the word in front of it, if there is one. -/
def elseWritten (other : List Instr) (code : List Written) : List Written :=
  if other.isEmpty then [] else .closing elseCode none :: code

theorem LinksTo.elseWritten {types : List FuncType} {label : Option String}
    (links : LinksTo types (label :: labels) code (encodeRun instrs) (label :: labels)) :
    LinksTo types (label :: labels) (elseWritten instrs code)
      (if instrs.isEmpty then [] else elseCode :: encodeRun instrs) (label :: labels) := by
  unfold Text.elseWritten
  split
  · exact .nil types _
  · have between : LinksTo types (label :: labels) [.closing elseCode none] [elseCode]
        (label :: labels) := .single rfl
    exact between.append links

theorem FlattensTo.elseTrees (flattens : FlattensTo scope (trees ++ rest) (code ++ more))
    (before : Follows (trees ++ rest)) (behind : FlattensTo scope rest more) :
    FlattensTo scope (elseTrees instrs trees ++ rest) (elseWritten instrs code ++ more) := by
  unfold Text.elseTrees Text.elseWritten
  split
  · exact behind
  · have reads : Parse.instruction scope "else" ([] ++ (trees ++ rest)) =
        some (.closing elseCode none, trees ++ rest) :=
      Parse.map_of_some (Written.closing elseCode) before.name?
    have word := flattens.word reads
    exact word

/-- The condition of a folded branch ends where its parts begin. -/
theorem takeWhile_condition (lists : ∀ tree ∈ trees, tree.isOperand = true) (items : List Tree) :
    (trees ++ .list (.word "then" :: items) :: rest).takeWhile (!·.begins "then") = trees := by
  have before : ∀ tree ∈ trees, (!tree.begins "then") = true := fun tree mem =>
    (Bool.and_eq_true_iff.mp (lists tree mem)).2
  rw [List.takeWhile_append_of_pos before]
  simp [Tree.begins]

theorem FoldsTo.branch {conditionTrees bodyTrees otherTrees : List Tree}
    {condition body other : List Written}
    (reads : Parse.instruction scope "if" (trees ++ (conditionTrees ++
        .list (.word "then" :: bodyTrees) :: elseList instrs otherTrees)) =
      some (written, conditionTrees ++
        .list (.word "then" :: bodyTrees) :: elseList instrs otherTrees))
    (lists : ∀ tree ∈ conditionTrees, tree.isOperand = true)
    (before : FlattensTo scope conditionTrees condition)
    (inner : FlattensTo scope bodyTrees body) (otherwise : FlattensTo scope otherTrees other) :
    FoldsTo scope (.word "if" :: (trees ++ (conditionTrees ++
        .list (.word "then" :: bodyTrees) :: elseList instrs otherTrees)))
      (condition ++ written :: (body ++ (elseWritten instrs other ++ [.ending]))) := by
  intro fuel done small
  simp only [Tree.sizeOfAll, Tree.size, sizeOfAll_append] at small
  have operands : conditionTrees.all (·.isList) = true :=
    List.all_eq_true.mpr fun tree mem => (Bool.and_eq_true_iff.mp (lists tree mem)).1
  have first := before fuel done (by omega)
  have second := inner fuel (written :: (condition.reverse ++ done)) (by omega)
  simp only [Written.folded, reads, Option.bind_eq_bind, Option.bind_some, Written.foldedBranch,
    takeWhile_condition lists, operands, Bool.not_true, Bool.false_eq_true, if_false, first,
    List.drop_left]
  cases empty : instrs.isEmpty with
  | true =>
    simp [elseList, elseWritten, empty, second]
  | false =>
    -- The second part comes behind all that was put in order before, the condition included.
    simp only [elseList, empty, Bool.false_eq_true, if_false, Tree.sizeOfAll, Tree.size] at small
    have third := otherwise fuel (.closing elseCode none :: (body.reverse ++
      written :: (condition.reverse ++ done))) (by omega)
    simp [elseList, elseWritten, empty, second, third]

/--
Trees are put into the order of some instructions, which stand for the bytes of code. No instruction
in front of them takes any of them.
-/
structure Assembles (scope : CodeScope) (labels : NameList) (instrs : List Instr)
    (trees : List Tree) (code : List Written) : Prop where
  follows : ∀ rest, Follows rest → Follows (trees ++ rest)
  flattens : ∀ rest more, Follows rest → FlattensTo scope rest more →
    FlattensTo scope (trees ++ rest) (code ++ more)
  links : LinksTo scope.types labels code (encodeRun instrs) labels

theorem Assembles.alone (assembles : Assembles scope labels instrs trees code) :
    FlattensTo scope trees code := by
  simpa using assembles.flattens [] [] follows_nil .nil

theorem Assembles.follows_alone (assembles : Assembles scope labels instrs trees code) :
    Follows trees := by
  simpa using assembles.follows [] follows_nil

theorem encodeRun_append (first second : List Instr) :
    encodeRun (first ++ second) = encodeRun first ++ encodeRun second := by
  induction first with
  | nil => rfl
  | cons instr first hyp => rw [List.cons_append, encodeRun, encodeRun, hyp, List.append_assoc]

section Assembles

variable {later : List Instr} {behind : List Tree}
  (tail : Assembles scope labels later behind more)

include tail

theorem Assembles.plain (spells : Instr.Spells scope labels instr name trees) :
    ∃ code, Assembles scope labels (instr :: later) (.word name :: (trees ++ behind)) code := by
  obtain ⟨written, linked, reads⟩ := spells.read
  refine ⟨written :: more, fun _ _ => follows_word spells.isHead _,
    fun rest code next flattens => ?_, (LinksTo.single linked).append tail.links⟩
  have order := FlattensTo.word (reads _ (tail.follows rest next))
    (tail.flattens rest code next flattens)
  simpa using order

theorem Assembles.folded {operands : List Instr} {operandTrees : List Tree}
    (before : Assembles scope labels operands operandTrees code)
    (spells : Instr.Spells scope labels instr name trees) :
    ∃ code, Assembles scope labels (operands ++ instr :: later)
      (.list (.word name :: (trees ++ operandTrees)) :: behind) code := by
  obtain ⟨written, linked, reads⟩ := spells.read
  have folds := FoldsTo.plain spells.not_block (reads _ before.follows_alone) before.alone
  refine ⟨code ++ [written] ++ more, fun _ _ => follows_list spells.isHead _ _,
    fun rest code next flattens => ?_, ?_⟩
  · have order := FlattensTo.list folds (tail.flattens rest code next flattens)
    simpa using order
  · have bytes := before.links.append ((LinksTo.single linked).append tail.links)
    simpa [encodeRun_append, encodeRun] using bytes

section Block

variable {form : String × UInt8 × (BlockType → List Instr → Instr)} {label : Option String}
  {type : BlockType} {typeTrees bodyTrees close : List Tree} {body : List Instr}
  (listed : form ∈ blockForms) (typed : BlockType.Spells scope type typeTrees)
  (inner : Assembles scope (label :: labels) body bodyTrees code)

include listed typed inner

theorem Assembles.block (ends : EndsAs label close) :
    ∃ code, Assembles scope labels (form.2.2 type body :: later)
      (.word form.1 :: (labelTrees label ++ typeTrees ++ (bodyTrees ++ (close ++ behind))))
      code := by
  obtain ⟨first, opened, reads_first⟩ := exists_opening typed form.2.1 label
  rw [← instruction_blockForms scope form listed] at reads_first
  obtain ⟨last, closed, after, rfl, reads_last⟩ := ends.read scope
  refine ⟨first :: (code ++ last :: more), fun _ _ => follows_word (isHead_blockForms listed) _,
    fun rest others next flattens => ?_, ?_⟩
  · have word : Follows (.word "end" :: (after ++ (behind ++ rest))) :=
      follows_word (isHead_of_control (by simp [controlNames])) _
    have close := FlattensTo.word (reads_last _ (tail.follows rest next))
      (tail.flattens rest others next flattens)
    have order := FlattensTo.word (reads_first _ (inner.follows _ word))
      (inner.flattens _ _ word close)
    simpa using order
  · have bytes := (LinksTo.single (opened labels)).append
      (inner.links.append ((LinksTo.single (closed labels)).append tail.links))
    simpa [encodeRun, encode_blockForms type body form listed] using bytes

theorem Assembles.foldedBlock :
    ∃ code, Assembles scope labels (form.2.2 type body :: later)
      (.list (.word form.1 :: (labelTrees label ++ typeTrees ++ bodyTrees)) :: behind) code := by
  obtain ⟨first, opened, reads⟩ := exists_opening typed form.2.1 label
  rw [← instruction_blockForms scope form listed] at reads
  have folds := FoldsTo.block listed (reads _ inner.follows_alone) inner.alone
  refine ⟨first :: code ++ [.ending] ++ more,
    fun _ _ => follows_list (isHead_blockForms listed) _ _,
    fun rest others next flattens => ?_, ?_⟩
  · have order := FlattensTo.list folds (tail.flattens rest others next flattens)
    simpa using order
  · have closed : LinksTo scope.types (label :: labels) [.ending] [endCode] labels := .single rfl
    have bytes := (LinksTo.single (opened labels)).append
      (inner.links.append (closed.append tail.links))
    simpa [encodeRun, encode_blockForms type body form listed] using bytes

end Block

section Branch

variable {label : Option String} {type : BlockType}
  {typeTrees conditionTrees bodyTrees otherTrees close : List Tree}
  {condition body other : List Instr} {conditionCode otherCode : List Written}
  (typed : BlockType.Spells scope type typeTrees)
  (inner : Assembles scope (label :: labels) body bodyTrees code)
  (otherwise : Assembles scope (label :: labels) other otherTrees otherCode)

include typed inner otherwise

theorem Assembles.branch (ends : EndsAs label close) :
    ∃ code, Assembles scope labels (.branch type body other :: later)
      (.word "if" :: (labelTrees label ++ typeTrees ++
        (bodyTrees ++ (elseTrees other otherTrees ++ (close ++ behind))))) code := by
  obtain ⟨first, opened, reads_first⟩ := exists_opening typed 0x04 label
  obtain ⟨last, closed, after, rfl, reads_last⟩ := ends.read scope
  refine ⟨first :: (code ++ (elseWritten other otherCode ++ last :: more)),
    fun _ _ => follows_word (isHead_of_control (by simp [controlNames])) _,
    fun rest others next flattens => ?_, ?_⟩
  · have word : Follows (.word "end" :: (after ++ (behind ++ rest))) :=
      follows_word (isHead_of_control (by simp [controlNames])) _
    have close := FlattensTo.word (reads_last _ (tail.follows rest next))
      (tail.flattens rest others next flattens)
    have second : FlattensTo scope (elseTrees other otherTrees ++ _) _ :=
      FlattensTo.elseTrees (otherwise.flattens _ _ word close) (otherwise.follows _ word) close
    have middle : Follows (elseTrees other otherTrees ++
        .word "end" :: (after ++ (behind ++ rest))) := by
      unfold elseTrees
      split
      · exact word
      · exact follows_word (isHead_of_control (by simp [controlNames])) _
    have order : FlattensTo scope (.word "if" :: _) _ :=
      FlattensTo.word (reads_first _ (inner.follows _ middle)) (inner.flattens _ _ middle second)
    simpa using order
  · have bytes := (LinksTo.single (opened labels)).append (inner.links.append
      (otherwise.links.elseWritten.append ((LinksTo.single (closed labels)).append tail.links)))
    simpa [encodeRun, Instr.encode] using bytes

theorem Assembles.foldedBranch
    (before : Assembles scope labels condition conditionTrees conditionCode)
    (lists : ∀ tree ∈ conditionTrees, tree.isOperand = true) :
    ∃ code, Assembles scope labels (condition ++ .branch type body other :: later)
      (.list (.word "if" :: (labelTrees label ++ typeTrees ++ (conditionTrees ++
        .list (.word "then" :: bodyTrees) :: elseList other otherTrees))) :: behind) code := by
  obtain ⟨first, opened, reads⟩ := exists_opening typed 0x04 label
  have parts : Follows (.list (.word "then" :: bodyTrees) :: elseList other otherTrees) :=
    follows_list (by decide) _ _
  have folds := FoldsTo.branch (reads _ (before.follows _ parts)) lists before.alone inner.alone
    otherwise.alone
  refine ⟨conditionCode ++ first :: (code ++ (elseWritten other otherCode ++ [.ending])) ++ more,
    fun _ _ => follows_list (isHead_of_control (by simp [controlNames])) _ _,
    fun rest others next flattens => ?_, ?_⟩
  · have order := FlattensTo.list folds (tail.flattens rest others next flattens)
    simpa using order
  · have closed : LinksTo scope.types (label :: labels) [.ending] [endCode] labels := .single rfl
    have bytes := before.links.append ((LinksTo.single (opened labels)).append (inner.links.append
      (otherwise.links.elseWritten.append (closed.append tail.links))))
    simpa [encodeRun_append, encodeRun, Instr.encode] using bytes

end Branch

end Assembles

/-- Trees that spell code are put into its order, and stand for its bytes. -/
theorem SpellsCode.exists_assembles (spells : SpellsCode scope labels instrs trees) :
    ∃ code, Assembles scope labels instrs trees code := by
  -- What comes first is put in front of code that was assembled before, here and inside blocks.
  induction spells with
  | nil => exact ⟨[], fun _ next => next, fun _ _ _ flattens => flattens, .nil _ _⟩
  | plain spells _ hyp =>
    obtain ⟨_, tail⟩ := hyp
    exact tail.plain spells
  | folded spells _ _ before_hyp hyp =>
    obtain ⟨_, tail⟩ := hyp
    obtain ⟨_, before⟩ := before_hyp
    exact tail.folded before spells
  | block listed typed _ ends _ inner_hyp hyp =>
    obtain ⟨_, tail⟩ := hyp
    obtain ⟨_, inner⟩ := inner_hyp
    exact tail.block listed typed inner ends
  | foldedBlock listed typed _ _ inner_hyp hyp =>
    obtain ⟨_, tail⟩ := hyp
    obtain ⟨_, inner⟩ := inner_hyp
    exact tail.foldedBlock listed typed inner
  | branch typed _ _ ends _ inner_hyp otherwise_hyp hyp =>
    obtain ⟨_, tail⟩ := hyp
    obtain ⟨_, inner⟩ := inner_hyp
    obtain ⟨_, otherwise⟩ := otherwise_hyp
    exact tail.branch typed inner otherwise ends
  | foldedBranch typed _ lists _ _ _ before_hyp inner_hyp otherwise_hyp hyp =>
    obtain ⟨_, tail⟩ := hyp
    obtain ⟨_, before⟩ := before_hyp
    obtain ⟨_, inner⟩ := inner_hyp
    obtain ⟨_, otherwise⟩ := otherwise_hyp
    exact tail.foldedBranch typed inner otherwise before lists

/-- Whatever trees spell code, they are assembled to the bytes of the code. -/
theorem parseCode_of_spells (spells : SpellsCode scope [] instrs trees) :
    parseCode scope trees = some (encodeCode instrs) := by
  obtain ⟨code, assembles⟩ := spells.exists_assembles
  have order := assembles.alone (Tree.sizeOfAll trees) [] le_rfl
  have linked := assembles.links []
  rw [List.append_nil] at order linked
  simp [parseCode, Written.flatten?, order, Written.linkAll?, linked, Written.linkRun?, encodeCode]

end TableKernels.Wasm.Text
