import Mathlib.Data.Nat.Digits.Lemmas
import TableKernels.Proofs.Wasm.Text.Code
import TableKernels.Proofs.Wasm.Text.Trees

/-!
# Code that can be spelled

Code that has a meaning can be written in trees, as far as its floats are those of numerals: every
number has a numeral in sixteens, and every kind of instruction a way to be written. So the
assembler reaches the bytes of all such code.
-/

namespace TableKernels.Wasm.Text

/-! ## Numerals -/

/-- A numeral of a number, in sixteens. -/
def hexadecimal (number : ℕ) : List Char :=
  '0' :: 'x' :: ((0 :: (Nat.digits 16 number).reverse).map Nat.digitChar)

theorem digitsFrom_digitChar {digit : ℕ} (small : digit < 16) (mustFollow : Bool)
    (rest : List Char) :
    Numeral.digitsFrom 16 mustFollow (Nat.digitChar digit :: rest) =
      (Numeral.digitsFrom 16 false rest).map (digit :: ·) := by
  have value := hexValue?_digitChar digit small
  have other : ∀ digit < 16, Nat.digitChar digit ≠ '_' := by
    decide
  rw [Numeral.digitsFrom.eq_3 16 mustFollow _ rest (other digit small), value]
  simp only [Option.bind_eq_bind, Option.bind_some, small, if_true, Option.pure_def,
    Option.map_eq_bind]
  rfl

theorem digitsFrom_map_digitChar {digits : List ℕ} (small : ∀ digit ∈ digits, digit < 16) :
    Numeral.digitsFrom 16 false (digits.map Nat.digitChar) = some digits := by
  induction digits with
  | nil => rfl
  | cons digit digits hyp =>
    obtain ⟨first, others⟩ := List.forall_mem_cons.mp small
    rw [List.map_cons, digitsFrom_digitChar first, hyp others, Option.map_some]

theorem spelled_reverse (digits : List ℕ) :
    Numeral.spelled 16 digits.reverse = Nat.ofDigits 16 digits := by
  rw [Numeral.spelled, List.foldl_reverse, Nat.ofDigits_eq_foldr]
  simp [Nat.add_comm]

/-- Every number has a numeral. -/
theorem unsigned?_hexadecimal (number : ℕ) :
    Numeral.unsigned? (hexadecimal number) = some number := by
  have small : ∀ digit ∈ 0 :: (Nat.digits 16 number).reverse, digit < 16 := by
    simp only [List.forall_mem_cons, List.mem_reverse]
    exact ⟨by decide, fun digit mem => Nat.digits_lt_base (by decide) mem⟩
  have digits : Numeral.digits? 16 ((0 :: (Nat.digits 16 number).reverse).map Nat.digitChar) =
      some (0 :: (Nat.digits 16 number).reverse) := by
    rw [Numeral.digits?, List.map_cons, digitsFrom_digitChar (by decide),
      digitsFrom_map_digitChar fun digit mem => small digit (List.mem_cons_of_mem 0 mem)]
    rfl
  rw [hexadecimal, Numeral.unsigned?, digits, Option.map_some]
  exact congrArg some ((spelled_reverse _).trans (Nat.ofDigits_digits 16 number))

theorem natural?_hexadecimal (number : ℕ) :
    Numeral.natural? (hexadecimal number) = some number :=
  unsigned?_hexadecimal number

theorem integer?_hexadecimal {width number : ℕ} (small : number < 2 ^ width) :
    Numeral.integer? width (hexadecimal number) = some (number : ℤ) := by
  have sign : Numeral.sign (hexadecimal number) = (false, hexadecimal number) := rfl
  simp [Numeral.integer?, sign, unsigned?_hexadecimal, small]

/-- Everything that has a number can be referred to. -/
theorem refers_hexadecimal (names : NameList) (index : UInt32) :
    Refers names (.word (String.ofList (hexadecimal index.toNat))) index := by
  have refers : Refers names (.word (String.ofList (hexadecimal index.toNat)))
      (UInt32.ofNat index.toNat) :=
    .number (by rw [String.toList_ofList, natural?_hexadecimal]) index.toNat_lt
  rwa [UInt32.ofNat_toNat] at refers

theorem exists_refers (names : NameList) (index : UInt32) : ∃ tree, Refers names tree index :=
  ⟨_, refers_hexadecimal names index⟩

theorem exists_refer (names : NameList) (indices : List UInt32) :
    ∃ trees, List.Forall₂ (Refers names) trees indices := by
  induction indices with
  | nil => exact ⟨[], .nil⟩
  | cons index indices hyp =>
    obtain ⟨trees, refer⟩ := hyp
    obtain ⟨tree, refers⟩ := exists_refers names index
    exact ⟨tree :: trees, .cons refers refer⟩

/-! ## Plain instructions -/

/-- Whether a plain instruction can be written; a float must be that of a numeral. -/
def Op.IsSpellable : Op → Prop
  | .load _ place | .save _ place => place.alignment < 32
  | .select (some type) => type.isRunnable = true
  | .refNull type => type ≠ .other
  | .f32Const bits => ∃ letters number, Numeral.binary32? letters = some number ∧ number.bits = bits
  | .f64Const bits => ∃ letters number, Numeral.binary64? letters = some number ∧ number.bits = bits
  | _ => True

theorem exists_parseValType {type : ValType} (runnable : type.isRunnable = true) :
    ∃ tree, parseValType tree = some type := by
  cases type with
  | i32 => exact ⟨.word "i32", rfl⟩
  | i64 => exact ⟨.word "i64", rfl⟩
  | f32 => exact ⟨.word "f32", rfl⟩
  | f64 => exact ⟨.word "f64", rfl⟩
  | v128 => cases runnable
  | ref type =>
    cases type with
    | func => exact ⟨.word "funcref", rfl⟩
    | host => exact ⟨.word "externref", rfl⟩
    | other => cases runnable

theorem MemoryPlace.exists_spells (names : NameList) (natural : UInt32) {place : MemoryPlace}
    (small : place.alignment < 32) : ∃ trees, MemoryPlace.Spells names natural place trees := by
  obtain ⟨tree, refers⟩ := exists_refers names place.memory
  have offset : Setting "offset=" 0x10000000000000000 [_] _ :=
    .given (natural?_hexadecimal place.offset.toNat) place.offset.toNat_lt
  have spelled : MemoryPlace.Spells names natural _ _ :=
    .aligned (.given refers) offset (UInt32.lt_iff_toNat_lt.mp small) (natural?_hexadecimal _)
  simp only [Option.getD_some, UInt32.ofNat_toNat, UInt64.ofNat_toNat] at spelled
  exact ⟨_, spelled⟩

theorem Op.exists_spells (scope : CodeScope) (op : Op) (spellable : Op.IsSpellable op) :
    ∃ name trees, Op.Spells scope op name trees := by
  have refers := refers_hexadecimal
  have one : ∀ item ∈ byReference scope, ∀ index,
      ∃ name trees, Op.Spells scope (item.2.2 index) name trees :=
    fun item listed index => ⟨_, _, .reference listed (refers item.2.1 index)⟩
  have first : ∀ item ∈ byReferenceOrFirst scope, ∀ index,
      ∃ name trees, Op.Spells scope (item.2.2 index) name trees :=
    fun item listed index => ⟨_, _, .referenceOrFirst listed (.given (refers item.2.1 index))⟩
  have segment : ∀ item ∈ bySegment scope, ∀ index thing,
      ∃ name trees, Op.Spells scope (item.2.2.2 index thing) name trees :=
    fun item listed index thing =>
      ⟨_, _, .segment listed (refers item.2.2.1 thing) (refers item.2.1 index)⟩
  have copy : ∀ item ∈ byCopy scope, ∀ target source,
      ∃ name trees, Op.Spells scope (item.2.2 target source) name trees :=
    fun item listed target source =>
      ⟨_, _, .copy listed (refers item.2.1 target) (refers item.2.1 source)⟩
  simp only [byReference, byReferenceOrFirst, List.forall_mem_cons] at one first
  simp only [bySegment, byCopy, List.forall_mem_cons] at segment copy
  cases op with
  | nop | drop | refIsNull => exact ⟨_, [], .bare (by simp [bareOps]; rfl)⟩
  | localGet | localSet | localTee | globalGet | globalSet | dataDrop | elemDrop | refFunc =>
    simp only [one]
  | tableGet | tableSet | memorySize | memoryGrow | memoryFill | tableGrow | tableSize
  | tableFill => simp only [first]
  | memoryInit | tableInit => simp only [segment]
  | memoryCopy | tableCopy => simp only [copy]
  | select type =>
    cases type with
    | none => exact ⟨_, _, .select⟩
    | some type =>
      obtain ⟨tree, named⟩ := exists_parseValType spellable
      exact ⟨_, _, .selectOf named⟩
  | load form place =>
    obtain ⟨trees, spells⟩ :=
      MemoryPlace.exists_spells scope.program.memories form.sizeLog spellable
    exact ⟨_, trees, .load spells⟩
  | save form place =>
    obtain ⟨trees, spells⟩ :=
      MemoryPlace.exists_spells scope.program.memories form.sizeLog spellable
    exact ⟨_, trees, .save spells⟩
  | i32Const value =>
    have spells : Op.Spells scope _ _ _ :=
      .i32Const (by rw [String.toList_ofList, integer?_hexadecimal value.toNat_lt])
    rw [Int32.ofInt_eq_ofNat, Int32.toUInt32_ofNat', UInt32.ofNat_toNat] at spells
    exact ⟨_, _, spells⟩
  | i64Const value =>
    have spells : Op.Spells scope _ _ _ :=
      .i64Const (by rw [String.toList_ofList, integer?_hexadecimal value.toNat_lt])
    rw [Int64.ofInt_eq_ofNat, Int64.toUInt64_ofNat', UInt64.ofNat_toNat] at spells
    exact ⟨_, _, spells⟩
  | f32Const bits =>
    obtain ⟨letters, number, read, rfl⟩ := spellable
    exact ⟨_, [.word (String.ofList letters)], .f32Const (by rw [String.toList_ofList, read])⟩
  | f64Const bits =>
    obtain ⟨letters, number, read, rfl⟩ := spellable
    exact ⟨_, [.word (String.ofList letters)], .f64Const (by rw [String.toList_ofList, read])⟩
  | refNull type =>
    cases type with
    | func => exact ⟨_, _, .refNullFunc⟩
    | host => exact ⟨_, _, .refNullHost⟩
    | other => exact absurd rfl spellable
  | numeric operator => exact ⟨_, [], .numeric⟩

/-! ## Code -/

/-- Whether the type of a block can be written. -/
def BlockType.IsSpellable : BlockType → Prop
  | .result type => type.isRunnable = true
  | .empty | .function _ => True

mutual

/-- Whether an instruction can be written. -/
def Instr.IsSpellable : Instr → Prop
  | .op op => Op.IsSpellable op
  | .blockOf type body | .loopOf type body => BlockType.IsSpellable type ∧ AreSpellable body
  | .branch type body other =>
    BlockType.IsSpellable type ∧ AreSpellable body ∧ AreSpellable other
  | .unreachable | .br _ | .brIf _ | .brTable _ _ | .ret | .call _ | .callIndirect _ _
  | .returnCall _ | .returnCallIndirect _ _ => True

/-- Whether instructions in a row can be written. -/
def AreSpellable : List Instr → Prop
  | [] => True
  | instr :: code => Instr.IsSpellable instr ∧ AreSpellable code

end

theorem BlockType.exists_spells (scope : CodeScope) {type : BlockType}
    (spellable : BlockType.IsSpellable type) : ∃ trees, BlockType.Spells scope type trees := by
  cases type with
  | empty => exact ⟨[], .empty⟩
  | result type =>
    obtain ⟨tree, named⟩ := exists_parseValType spellable
    exact ⟨_, .result named⟩
  | function index => exact ⟨_, .function (refers_hexadecimal _ index)⟩

mutual

/-- An instruction can be written in front of code that is written. -/
theorem Instr.exists_spells {scope : CodeScope} {labels : NameList} {code : List Instr}
    {trees : List Tree} (instr : Instr) (spellable : Instr.IsSpellable instr)
    (later : SpellsCode scope labels code trees) :
    ∃ trees, SpellsCode scope labels (instr :: code) trees := by
  have refers := refers_hexadecimal
  cases instr with
  | op op =>
    obtain ⟨name, trees, spells⟩ := Op.exists_spells scope op spellable
    exact ⟨_, .plain (.op spells) later⟩
  | unreachable => exact ⟨_, .plain .unreachable later⟩
  | ret => exact ⟨_, .plain .ret later⟩
  | br depth => exact ⟨_, .plain (.br (refers labels depth)) later⟩
  | brIf depth => exact ⟨_, .plain (.brIf (refers labels depth)) later⟩
  | brTable targets default =>
    obtain ⟨trees, refer⟩ := exists_refer labels targets
    exact ⟨_, .plain (.brTable refer (refers labels default)) later⟩
  | call index => exact ⟨_, .plain (.call (refers _ index)) later⟩
  | returnCall index => exact ⟨_, .plain (.returnCall (refers _ index)) later⟩
  | callIndirect type table =>
    have listed : ("call_indirect", (0x11 : UInt8), Instr.callIndirect) ∈ indirectForms := by
      simp [indirectForms]
    exact ⟨_, .plain (.indirect listed (.given (refers _ table)) (refers _ type)) later⟩
  | returnCallIndirect type table =>
    have listed : ("return_call_indirect", (0x13 : UInt8), Instr.returnCallIndirect) ∈
        indirectForms := by
      simp [indirectForms]
    exact ⟨_, .plain (.indirect listed (.given (refers _ table)) (refers _ type)) later⟩
  | blockOf type body =>
    have listed : ("block", (0x02 : UInt8), Instr.blockOf) ∈ blockForms := by
      simp [blockForms]
    obtain ⟨typeTrees, typed⟩ := BlockType.exists_spells scope spellable.1
    obtain ⟨bodyTrees, inner⟩ := exists_spellsCode scope (none :: labels) body spellable.2
    exact ⟨_, .foldedBlock listed typed inner later⟩
  | loopOf type body =>
    have listed : ("loop", (0x03 : UInt8), Instr.loopOf) ∈ blockForms := by
      simp [blockForms]
    obtain ⟨typeTrees, typed⟩ := BlockType.exists_spells scope spellable.1
    obtain ⟨bodyTrees, inner⟩ := exists_spellsCode scope (none :: labels) body spellable.2
    exact ⟨_, .foldedBlock listed typed inner later⟩
  | branch type body other =>
    obtain ⟨typeTrees, typed⟩ := BlockType.exists_spells scope spellable.1
    obtain ⟨bodyTrees, inner⟩ := exists_spellsCode scope (none :: labels) body spellable.2.1
    obtain ⟨otherTrees, otherwise⟩ := exists_spellsCode scope (none :: labels) other spellable.2.2
    -- The operand is on the stack already, so the condition in the list stays empty.
    exact ⟨_, .foldedBranch typed .nil nofun inner otherwise later⟩

/-- All code whose parts can be written can be written. -/
theorem exists_spellsCode (scope : CodeScope) (labels : NameList) (code : List Instr)
    (spellable : AreSpellable code) : ∃ trees, SpellsCode scope labels code trees := by
  cases code with
  | nil => exact ⟨[], .nil⟩
  | cons instr code =>
    obtain ⟨trees, later⟩ := exists_spellsCode scope labels code spellable.2
    exact Instr.exists_spells instr spellable.1 later

end

/-- The assembler reaches the bytes of all code that can be written. -/
theorem exists_parseCode (scope : CodeScope) {code : List Instr} (spellable : AreSpellable code) :
    ∃ trees, parseCode scope trees = some (encodeCode code) := by
  obtain ⟨trees, spells⟩ := exists_spellsCode scope [] code spellable
  exact ⟨trees, parseCode_of_spells spells⟩

end TableKernels.Wasm.Text
