import TableKernels.Proofs.Wasm.Operands
import TableKernels.Wasm.Machine

/-!
# Types of effects

A plain instruction that the check lets pass finds the operands it takes, leaves words of the types
that the check goes on with, and keeps the types of locals, globals, tables and segments. Each kind
of effect on a store has one lemma, which `Op.step_isTyped` applies to the instructions of the kind.
-/

namespace TableKernels.Wasm

variable {Host : Type}

/-! ## Stores -/

/-- A table is addressed as its type says, and its entries are of the type that it says. -/
structure Table.IsTyped (type : TableType) (table : Table) : Prop where
  wide : table.wide = type.wide
  entries : ∀ word ∈ table.entries, word.type = .ref type.entries

/--
The words of the globals and of the tables, those of the segments, and the addresses of the
memories, are as the scope says.
-/
structure Store.IsTyped (scope : Scope) (store : Store Host) : Prop where
  globals : store.globals.toList.map Word.type = scope.globals.map (·.type)
  memories : ∀ (index : UInt32) (type : MemoryType), scope.memories[index.toNat]? = some type →
    (store.memoryAt index).wide = type.wide
  tables : ∀ (index : UInt32) (type : TableType), scope.tables[index.toNat]? = some type →
    (store.tableAt index).IsTyped type
  elements : ∀ (index : UInt32) (type : RefType), scope.elements[index.toNat]? = some type →
    ∀ word ∈ store.elementsAt index, word.type = .ref type

/-- The words of the locals are as the scope says. -/
def Scope.Holds (scope : Scope) (locals : Array Word) : Prop :=
  locals.toList.map Word.type = scope.locals

theorem map_type_setIfInBounds {words : Array Word} {types : List ValType} {index : ℕ}
    {word : Word} (typed : words.toList.map Word.type = types)
    (same : types[index]? = some word.type) :
    (words.setIfInBounds index word).toList.map Word.type = types := by
  rw [Array.toList_setIfInBounds, List.map_set, typed]
  obtain ⟨inside, found⟩ := List.getElem?_eq_some_iff.mp same
  rw [← found, List.set_getElem_self]

theorem exists_word {words : Array Word} {types : List ValType} {index : ℕ} (type : ValType)
    (typed : words.toList.map Word.type = types) (found : types[index]? = some type) :
    ∃ word, words[index]? = some word ∧ word.type = type := by
  rw [← typed, List.getElem?_map, Array.getElem?_toList] at found
  exact Option.map_eq_some_iff.mp found

namespace Table

theorem mem_overwriteFrom {entries : Array Word} {index : ℕ} {words : List Word} {word : Word}
    (member : word ∈ overwriteFrom entries index words) : word ∈ entries ∨ word ∈ words := by
  rw [overwriteFrom] at member
  induction words generalizing entries index with
  | nil => exact .inl member
  | cons first words hypothesis =>
    rcases hypothesis member with before | behind
    · rcases Array.mem_or_eq_of_mem_setIfInBounds before with before | rfl
      · exact .inl before
      · exact .inr List.mem_cons_self
    · exact .inr (List.mem_cons_of_mem _ behind)

theorem type_sizeWord {type : TableType} {table : Table} (typed : table.IsTyped type) (size : ℕ) :
    (table.sizeWord size).type = type.indexType := by
  rw [sizeWord, TableType.indexType, typed.wide]
  split <;> rfl

end Table

namespace Store

variable {scope : Scope} {store : Store Host}

theorem wide_memoryAt_changeMemory (store : Store Host) (changed index : UInt32)
    {change : Memory → Memory} (same : ∀ memory, (change memory).wide = memory.wide) :
    ((store.changeMemory changed change).memoryAt index).wide = (store.memoryAt index).wide := by
  simp only [changeMemory, memoryAt]
  split
  · split
    · exact same _
    · rfl
  · split
    · rfl
    · rw [Array.getElem?_modify]
      split
      · cases store.others[index.toNat - 1]? with
        | none => rfl
        | some memory => exact same memory
      · rfl

theorem changeMemory_eq (store : Store Host) (index : UInt32) (change : Memory → Memory) :
    ∃ memory others, store.changeMemory index change = { store with memory, others } := by
  rw [changeMemory]
  split <;> exact ⟨_, _, rfl⟩

theorem globals_changeMemory (store : Store Host) (index : UInt32) (change : Memory → Memory) :
    (store.changeMemory index change).globals = store.globals := by
  obtain ⟨_, _, changed⟩ := store.changeMemory_eq index change
  rw [changed]

theorem IsTyped.changeMemory (typed : store.IsTyped scope) (index : UInt32)
    {change : Memory → Memory} (same : ∀ memory, (change memory).wide = memory.wide) :
    (store.changeMemory index change).IsTyped scope := by
  have wide (other : UInt32) := wide_memoryAt_changeMemory store index other same
  obtain ⟨memory, others, changed⟩ := store.changeMemory_eq index change
  rw [changed] at wide ⊢
  exact ⟨typed.globals,
    fun other type found => (wide other).trans (typed.memories other type found),
    typed.tables, typed.elements⟩

theorem IsTyped.changeBytes (typed : store.IsTyped scope) (index : UInt32)
    (change : ByteArray → ByteArray) : (store.changeBytes index change).IsTyped scope :=
  typed.changeMemory index fun _ => rfl

theorem IsTyped.withHost (typed : store.IsTyped scope) (host : Host) :
    ({ store with host } : Store Host).IsTyped scope :=
  ⟨typed.globals, typed.memories, typed.tables, typed.elements⟩

theorem IsTyped.setGlobal (typed : store.IsTyped scope) {index : UInt32} {type : GlobalType}
    {word : Word} (found : scope.globals[index.toNat]? = some type) (same : word.type = type.type) :
    ({ store with
      globals := store.globals.setIfInBounds index.toNat word } : Store Host).IsTyped scope where
  globals := by
    refine map_type_setIfInBounds typed.globals ?_
    rw [List.getElem?_map, found, same]
    rfl
  memories := typed.memories
  tables := typed.tables
  elements := typed.elements

theorem tableAt_changeEntries (store : Store Host) (changed index : UInt32)
    (change : Array Word → Array Word) :
    (store.changeEntries changed change).tableAt index = store.tableAt index ∨
      index = changed ∧ (store.changeEntries changed change).tableAt index =
        { store.tableAt index with entries := change (store.tableAt index).entries } := by
  simp only [changeEntries, tableAt]
  rw [Array.getElem?_modify]
  split
  · next same =>
    cases store.tables[index.toNat]? with
    | none => exact .inl rfl
    | some table => exact .inr ⟨UInt32.toNat_inj.mp same.symm, rfl⟩
  · exact .inl rfl

theorem IsTyped.changeEntries (typed : store.IsTyped scope) {index : UInt32} {type : TableType}
    {change : Array Word → Array Word} (found : scope.tables[index.toNat]? = some type)
    (same : ∀ word ∈ change (store.tableAt index).entries, word.type = .ref type.entries) :
    (store.changeEntries index change).IsTyped scope where
  globals := typed.globals
  memories := typed.memories
  tables other otherType declared := by
    have before := typed.tables other otherType declared
    rcases store.tableAt_changeEntries index other change with equal | ⟨rfl, equal⟩
    · exact equal ▸ before
    · cases found.symm.trans declared
      exact equal ▸ ⟨before.wide, same⟩
  elements := typed.elements

theorem IsTyped.dropData (typed : store.IsTyped scope) (segment : UInt32) :
    (store.dropData segment).IsTyped scope :=
  ⟨typed.globals, typed.memories, typed.tables, typed.elements⟩

theorem IsTyped.dropElements (typed : store.IsTyped scope) (segment : UInt32) :
    (store.dropElements segment).IsTyped scope where
  globals := typed.globals
  memories := typed.memories
  tables := typed.tables
  elements index type found word member := by
    refine typed.elements index type found word ?_
    rw [elementsAt, Store.dropElements, Array.getElem?_setIfInBounds] at member
    rw [elementsAt]
    split at member
    · split at member <;> cases member
    · exact member

end Store

/-! ## Effects -/

/-- An effect leaves the operands that the check goes on with, and typed locals and globals. -/
def Effect.IsTyped (scope : Scope) (after : Operands) : Effect Host → Prop
  | .next stack locals store =>
    after = .ofWords stack ∧ scope.Holds locals ∧ store.IsTyped scope
  | .trap _ store => store.IsTyped scope
  | .stuck => False

variable {scope : Scope} {after : Operands} {stack rest : List Word} {locals : Array Word}
  {store : Store Host}

theorem Evaluation.IsTyped.cases {evaluation : Evaluation} {type : ValType}
    (evaluated : evaluation.IsTyped type) :
    (∃ word, evaluation = .result word ∧ word.type = type) ∨
      ∃ trap, evaluation = .trap trap := by
  cases evaluation with
  | result word => exact .inl ⟨word, rfl, evaluated⟩
  | trap trap => exact .inr ⟨trap, rfl⟩
  | stuck => exact evaluated.elim

theorem Operator.step_isTyped (operator : Operator) (holds : scope.Holds locals)
    (typed : store.IsTyped scope)
    (checked : (Operands.ofWords stack).exchange? operator.operands [operator.result] =
      some after) : (operator.step stack locals store).IsTyped scope after := by
  have finish {word : Word} {rest : List Word} (result : word.type = operator.result)
      (leaves : ∀ results : List Word, results.map Word.type = [operator.result] →
        after = .ofWords (results.reverse ++ rest)) :
      (Effect.next (word :: rest) locals store).IsTyped scope after :=
    ⟨leaves [word] (congrArg (fun type => [type]) result), holds, typed⟩
  unfold Operator.step
  rw [Operator.operands] at checked
  split at checked
  · next unary =>
    obtain ⟨word, rest, rfl, one, leaves⟩ := Operands.exchange?_one checked
    rw [if_pos unary]
    obtain ⟨result, found, type⟩ | ⟨trap, found⟩ := (apply1_isTyped unary one).cases
    · simp only [found]
      exact finish type leaves
    · simp only [found]
      exact typed
  · next binary =>
    obtain ⟨below, word, rest, rfl, left, right, leaves⟩ := Operands.exchange?_two checked
    rw [if_neg binary]
    obtain ⟨result, found, type⟩ | ⟨trap, found⟩ :=
      (apply2_isTyped (by simpa using binary) left right).cases
    · simp only [found]
      exact finish type leaves
    · simp only [found]
      exact typed

/-! ## Numbers as operands -/

/-- A type of addresses, of indices and of amounts. -/
def ValType.IsNumbering (type : ValType) : Prop := type = .i32 ∨ type = .i64

theorem MemoryType.addressType_isNumbering (type : MemoryType) :
    type.addressType.IsNumbering := by
  rw [MemoryType.addressType]
  split
  · exact .inr rfl
  · exact .inl rfl

theorem TableType.indexType_isNumbering (type : TableType) : type.indexType.IsNumbering := by
  rw [TableType.indexType]
  split
  · exact .inr rfl
  · exact .inl rfl

theorem amountType_isNumbering (first : ValType) {second : ValType}
    (numbering : second.IsNumbering) : (amountType first second).IsNumbering := by
  rw [amountType]
  split
  · exact .inl rfl
  · exact numbering

theorem withNumber_isTyped {word : Word} {run : ℕ → List Word → Effect Host}
    (numbering : word.type.IsNumbering)
    (typed : ∀ number, (run number rest).IsTyped scope after) :
    (withNumber (word :: rest) run).IsTyped scope after := by
  rcases numbering with same | same <;> cases word <;> cases same <;> exact typed _

theorem withNumbers_isTyped {first second third : Word} {run : ℕ → ℕ → ℕ → List Word → Effect Host}
    (one : first.type.IsNumbering) (two : second.type.IsNumbering)
    (three : third.type.IsNumbering)
    (typed : ∀ lowest below latest, (run lowest below latest rest).IsTyped scope after) :
    (withNumbers (third :: second :: first :: rest) run).IsTyped scope after :=
  withNumber_isTyped three fun _ => withNumber_isTyped two fun _ => withNumber_isTyped one fun _ =>
    typed _ _ _

/-! ## Memories and tables -/

theorem Load.type_word (form : Load) (bits : UInt64) : (form.word bits).type = form.type := by
  cases form <;> rfl

theorem Load.type_of_read {form : Load} {memory : Memory} {address : ℕ} {word : Word}
    (found : form.read memory address = some word) : word.type = form.type := by
  rw [read] at found
  split at found
  all_goals
    obtain ⟨_, _, rfl⟩ := Option.map_eq_some_iff.mp found
    exact form.type_word _

theorem Save.exists_bits {form : Save} {word : Word} (typed : word.type = form.type) :
    ∃ bits, form.bits? word = some bits := by
  cases form <;> cases word <;> cases typed <;> exact ⟨_, rfl⟩

theorem MemoryPlace.load_isTyped (place : MemoryPlace) {read : Memory → ℕ → Option Word}
    {base : ℕ} {type : ValType} (reads : ∀ memory address word, read memory address = some word →
      word.type = type) (holds : scope.Holds locals) (typed : store.IsTyped scope)
    (leaves : ∀ results : List Word, results.map Word.type = [type] →
      after = .ofWords (results.reverse ++ rest)) :
    (place.load read base rest locals store).IsTyped scope after := by
  rw [MemoryPlace.load]
  split
  · next word found =>
    exact ⟨leaves [word] (congrArg (fun type => [type]) (reads _ _ _ found)), holds, typed⟩
  · exact typed

theorem MemoryPlace.save_isTyped (place : MemoryPlace) (count : ℕ)
    (write : ByteArray → ℕ → ByteArray) (base : ℕ) (holds : scope.Holds locals)
    (typed : store.IsTyped scope) (leaves : after = .ofWords rest) :
    (place.save count write base rest locals store).IsTyped scope after := by
  rw [MemoryPlace.save]
  split
  · exact ⟨leaves, holds, typed.changeBytes _ _⟩
  · exact typed

theorem Store.fill_isTyped (memory : UInt32) (base : ℕ) (value : UInt8) (count : ℕ)
    (holds : scope.Holds locals) (typed : store.IsTyped scope) (leaves : after = .ofWords rest) :
    (store.fill memory base value count rest locals).IsTyped scope after := by
  rw [Store.fill]
  split
  · exact ⟨leaves, holds, typed.changeBytes _ _⟩
  · exact typed

theorem Store.write_isTyped (memory : UInt32) (address : ℕ) (content? : Option Bytes)
    (holds : scope.Holds locals) (typed : store.IsTyped scope) (leaves : after = .ofWords rest) :
    (store.write memory address content? rest locals).IsTyped scope after := by
  rw [Store.write.eq_def]
  split
  · split
    · exact ⟨leaves, holds, typed.changeBytes _ _⟩
    · exact typed
  · exact typed

theorem Memory.type_pageWord (memory : Memory) (pages : ℕ) {type : MemoryType}
    (same : memory.wide = type.wide) : (memory.pageWord pages).type = type.addressType := by
  rw [Memory.pageWord, MemoryType.addressType, same]
  split <;> rfl

theorem Store.grow_isTyped (memory : UInt32) (more : ℕ) {failed : Word} {type : MemoryType}
    (found : scope.memories[memory.toNat]? = some type) (word : failed.type = type.addressType)
    (holds : scope.Holds locals) (typed : store.IsTyped scope)
    (leaves : ∀ results : List Word, results.map Word.type = [type.addressType] →
      after = .ofWords (results.reverse ++ rest)) :
    (store.grow memory more failed rest locals).IsTyped scope after := by
  have before := (store.memoryAt memory).type_pageWord (store.memoryAt memory).pages
    (typed.memories memory type found)
  rw [Store.grow]
  split
  · exact ⟨leaves [_] (congrArg (fun type => [type]) before), holds,
      typed.changeMemory _ fun _ => rfl⟩
  · exact ⟨leaves [_] (congrArg (fun type => [type]) word), holds, typed⟩

theorem Store.put_isTyped (table : UInt32) (index : ℕ) {words? : Option (List Word)}
    {type : TableType} (found : scope.tables[table.toNat]? = some type)
    (same : ∀ words ∈ words?, ∀ word ∈ words, word.type = .ref type.entries)
    (holds : scope.Holds locals) (typed : store.IsTyped scope) (leaves : after = .ofWords rest) :
    (store.put table index words? rest locals).IsTyped scope after := by
  cases words? with
  | none => exact typed
  | some words =>
    simp only [Store.put]
    split
    · refine ⟨leaves, holds, typed.changeEntries found fun word member => ?_⟩
      exact (Table.mem_overwriteFrom member).elim ((typed.tables table type found).entries word)
        (same words rfl word)
    · exact typed

theorem Store.growTable_isTyped (table : UInt32) {word failed : Word} (more : ℕ) {type : TableType}
    (found : scope.tables[table.toNat]? = some type) (same : word.type = .ref type.entries)
    (sized : failed.type = type.indexType) (holds : scope.Holds locals)
    (typed : store.IsTyped scope)
    (leaves : ∀ results : List Word, results.map Word.type = [type.indexType] →
      after = .ofWords (results.reverse ++ rest)) :
    (store.growTable table word more failed rest locals).IsTyped scope after := by
  have before := Table.type_sizeWord (typed.tables table type found)
    (store.tableAt table).entries.size
  rw [Store.growTable]
  split
  · refine ⟨leaves [_] (congrArg (fun type => [type]) before), holds,
      typed.changeEntries found fun entry member => ?_⟩
    rcases Array.mem_append.mp member with member | member
    · exact (typed.tables table type found).entries entry member
    · rw [(Array.mem_replicate.mp member).2, same]
  · exact ⟨leaves [_] (congrArg (fun type => [type]) sized), holds, typed⟩

theorem mem_of_slice? {α : Type} {items part : List α} {start count : ℕ} {item : α}
    (found : slice? items start count = some part) (member : item ∈ part) : item ∈ items := by
  rw [slice?] at found
  split at found
  · cases found
    exact List.mem_of_mem_drop (List.mem_of_mem_take member)
  · cases found

/-- A type of addresses or indices is that of one of the two words that are numbers. -/
theorem ValType.IsNumbering.cases {type : ValType} {word : Word} (numbering : type.IsNumbering)
    (same : word.type = type) :
    (∃ value, word = .i32 value ∧ type = .i32) ∨ ∃ value, word = .i64 value ∧ type = .i64 := by
  rcases numbering with rfl | rfl <;> cases word <;> cases same
  · exact .inl ⟨_, rfl, rfl⟩
  · exact .inr ⟨_, rfl, rfl⟩

/-! ## Plain instructions -/

theorem Scope.exists_of_address {memory : UInt32} {address : ValType}
    (found : Scope.checkOp?.address scope memory = some address) :
    ∃ type : MemoryType, scope.memories[memory.toNat]? = some type ∧
      address = type.addressType := by
  obtain ⟨type, declared, same⟩ := Option.bind_eq_some_iff.mp found
  exact ⟨type, declared, (Option.some.inj same).symm⟩

/-- An access that is let through exchanges an address and what is saved for what is loaded. -/
theorem Scope.exists_of_access {place : MemoryPlace} {natural : UInt32} {operands : Operands}
    {taken left : List ValType}
    (checked : (Scope.checkOp?.address scope place.memory >>= fun address =>
      Scope.checkOp?.access operands place natural address taken left) = some after) :
    ∃ type : MemoryType, scope.memories[place.memory.toNat]? = some type ∧
      operands.exchange? (type.addressType :: taken) left = some after := by
  obtain ⟨address, found, checked⟩ := Option.bind_eq_some_iff.mp checked
  obtain ⟨type, declared, rfl⟩ := exists_of_address found
  rw [Scope.checkOp?.access] at checked
  split at checked
  · exact ⟨type, declared, checked⟩
  · cases checked

/-- A plain instruction that the check lets pass does what the check expects of it. -/
theorem Op.step_isTyped (op : Op) (checked : scope.checkOp? (.ofWords stack) op = some after)
    (holds : scope.Holds locals) (typed : store.IsTyped scope) :
    (op.step stack locals store).IsTyped scope after := by
  cases op with
  | nop => exact ⟨(Option.some.inj checked).symm, holds, typed⟩
  | drop =>
    obtain ⟨⟨latest, operands⟩, popped, rfl⟩ := Option.map_eq_some_iff.mp checked
    obtain ⟨word, rest, rfl, _, rfl⟩ := Operands.popAny?_ofWords popped
    exact ⟨rfl, holds, typed⟩
  | select type =>
    cases type with
    | none =>
      obtain ⟨condition, second, first, rest, rfl, same, rfl⟩ := Operands.choose?_ofWords checked
      refine ⟨?_, holds, typed⟩
      split
      · rw [Operands.ofWords, List.map_cons, ← same]
        rfl
      · rfl
    | some type =>
      rw [Scope.checkOp?] at checked
      split at checked
      case isFalse => cases checked
      case isTrue =>
        obtain ⟨first, second, condition, rest, rfl, one, two, last, leaves⟩ :=
          Operands.exchange?_three checked
        cases condition <;> cases last
        refine ⟨leaves [_] (congrArg (fun type => [type]) ?_), holds, typed⟩
        split
        · exact two
        · exact one
  | localGet index =>
    obtain ⟨type, found, checked⟩ := Option.bind_eq_some_iff.mp checked
    obtain ⟨word, same, rfl⟩ := exists_word type holds found
    simp only [Op.step, same]
    exact ⟨Operands.exchange?_nil [word] checked rfl, holds, typed⟩
  | localSet index =>
    obtain ⟨type, found, checked⟩ := Option.bind_eq_some_iff.mp checked
    obtain ⟨word, rest, rfl, rfl, leaves⟩ := Operands.exchange?_one checked
    exact ⟨leaves [] rfl, map_type_setIfInBounds holds found, typed⟩
  | localTee index =>
    obtain ⟨type, found, checked⟩ := Option.bind_eq_some_iff.mp checked
    obtain ⟨word, rest, rfl, rfl, leaves⟩ := Operands.exchange?_one checked
    exact ⟨leaves [word] rfl, map_type_setIfInBounds holds found, typed⟩
  | globalGet index =>
    obtain ⟨type, found, checked⟩ := Option.bind_eq_some_iff.mp checked
    obtain ⟨word, same, word_type⟩ := exists_word type.type typed.globals
      (by rw [List.getElem?_map, found]; rfl)
    simp only [Op.step, same]
    exact ⟨Operands.exchange?_nil [word] checked
      (congrArg (fun type => [type]) word_type), holds, typed⟩
  | globalSet index =>
    obtain ⟨type, found, checked⟩ := Option.bind_eq_some_iff.mp checked
    split at checked
    · obtain ⟨word, rest, rfl, same, leaves⟩ := Operands.exchange?_one checked
      exact ⟨leaves [] rfl, holds, typed.setGlobal found same⟩
    · cases checked
  | tableGet table =>
    obtain ⟨type, found, checked⟩ := Option.bind_eq_some_iff.mp checked
    obtain ⟨index, rest, rfl, same, leaves⟩ := Operands.exchange?_one checked
    refine withNumber_isTyped (same ▸ type.indexType_isNumbering) fun number => ?_
    split
    · next word entry =>
      have entered := (typed.tables table type found).entries word (Array.mem_of_getElem? entry)
      exact ⟨leaves [word] (congrArg (fun type => [type]) entered), holds, typed⟩
    · exact typed
  | tableSet table =>
    obtain ⟨type, found, checked⟩ := Option.bind_eq_some_iff.mp checked
    obtain ⟨index, word, rest, rfl, same, entered, leaves⟩ := Operands.exchange?_two checked
    refine withNumber_isTyped (same ▸ type.indexType_isNumbering) fun number => ?_
    refine Store.put_isTyped table number found ?_ holds typed (leaves [] rfl)
    rintro _ ⟨⟩ _ member
    exact List.mem_singleton.mp member ▸ entered
  | load form place =>
    obtain ⟨type, declared, checked⟩ := Scope.exists_of_access checked
    obtain ⟨base, rest, rfl, same, leaves⟩ := Operands.exchange?_one checked
    exact withNumber_isTyped (same ▸ type.addressType_isNumbering) fun _ =>
      place.load_isTyped (fun _ _ _ => Load.type_of_read) holds typed leaves
  | save form place =>
    obtain ⟨type, declared, checked⟩ := Scope.exists_of_access checked
    obtain ⟨base, value, rest, rfl, same, value_type, leaves⟩ := Operands.exchange?_two checked
    obtain ⟨bits, found⟩ := Save.exists_bits value_type
    simp only [Op.step, found]
    exact withNumber_isTyped (same ▸ type.addressType_isNumbering) fun _ =>
      place.save_isTyped _ _ _ holds typed (leaves [] rfl)
  | memorySize memory =>
    obtain ⟨_, found, checked⟩ := Option.bind_eq_some_iff.mp checked
    obtain ⟨type, declared, rfl⟩ := Scope.exists_of_address found
    have word := (store.memoryAt memory).type_pageWord (store.memoryAt memory).pages
      (typed.memories memory type declared)
    exact ⟨Operands.exchange?_nil [_] checked
      (congrArg (fun type => [type]) word), holds, typed⟩
  | memoryGrow memory =>
    obtain ⟨_, found, checked⟩ := Option.bind_eq_some_iff.mp checked
    obtain ⟨type, declared, rfl⟩ := Scope.exists_of_address found
    obtain ⟨_, again, checked⟩ := Option.bind_eq_some_iff.mp checked
    -- The check asks for the address type of the memory twice, and gets the same.
    cases found.symm.trans again
    obtain ⟨more, rest, rfl, same, leaves⟩ := Operands.exchange?_one checked
    obtain ⟨_, rfl, narrow⟩ | ⟨_, rfl, wide⟩ := type.addressType_isNumbering.cases same
    · exact store.grow_isTyped memory _ declared narrow.symm holds typed leaves
    · exact store.grow_isTyped memory _ declared wide.symm holds typed leaves
  | memoryInit segment memory =>
    rw [Scope.checkOp?] at checked
    split at checked
    case isFalse => cases checked
    case isTrue =>
      obtain ⟨_, found, checked⟩ := Option.bind_eq_some_iff.mp checked
      obtain ⟨type, declared, rfl⟩ := Scope.exists_of_address found
      obtain ⟨target, source, count, rest, rfl, one, two, three, leaves⟩ :=
        Operands.exchange?_three checked
      exact withNumbers_isTyped (one ▸ type.addressType_isNumbering) (.inl two) (.inl three)
        fun _ _ _ => store.write_isTyped memory _ _ holds typed (leaves [] rfl)
  | dataDrop segment =>
    rw [Scope.checkOp?] at checked
    split at checked
    · exact ⟨(Option.some.inj checked).symm, holds, typed.dropData segment⟩
    · cases checked
  | memoryCopy target source =>
    obtain ⟨_, found, checked⟩ := Option.bind_eq_some_iff.mp checked
    obtain ⟨goal, _, rfl⟩ := Scope.exists_of_address found
    obtain ⟨_, found, checked⟩ := Option.bind_eq_some_iff.mp checked
    obtain ⟨start, _, rfl⟩ := Scope.exists_of_address found
    obtain ⟨_, _, _, rest, rfl, one, two, three, leaves⟩ := Operands.exchange?_three checked
    exact withNumbers_isTyped (one ▸ goal.addressType_isNumbering)
      (two ▸ start.addressType_isNumbering)
      (three ▸ amountType_isNumbering _ start.addressType_isNumbering)
      fun _ _ _ => store.write_isTyped target _ _ holds typed (leaves [] rfl)
  | memoryFill memory =>
    obtain ⟨_, found, checked⟩ := Option.bind_eq_some_iff.mp checked
    obtain ⟨type, declared, rfl⟩ := Scope.exists_of_address found
    obtain ⟨_, again, checked⟩ := Option.bind_eq_some_iff.mp checked
    cases found.symm.trans again
    obtain ⟨base, value, count, rest, rfl, one, two, three, leaves⟩ :=
      Operands.exchange?_three checked
    cases value <;> cases two
    obtain ⟨_, rfl, narrow⟩ | ⟨_, rfl, wide⟩ := type.addressType_isNumbering.cases one
    · rw [narrow] at three
      cases count <;> cases three
      exact store.fill_isTyped memory _ _ _ holds typed (leaves [] rfl)
    · rw [wide] at three
      cases count <;> cases three
      exact store.fill_isTyped memory _ _ _ holds typed (leaves [] rfl)
  | tableInit segment table =>
    obtain ⟨type, found, checked⟩ := Option.bind_eq_some_iff.mp checked
    split at checked
    case isFalse => cases checked
    case isTrue segmentType =>
      obtain ⟨_, _, _, rest, rfl, one, two, three, leaves⟩ := Operands.exchange?_three checked
      refine withNumbers_isTyped (one ▸ type.indexType_isNumbering) (.inl two) (.inl three)
        fun _ _ _ => store.put_isTyped table _ found ?_ holds typed (leaves [] rfl)
      exact fun words sliced word member =>
        typed.elements segment type.entries segmentType word (mem_of_slice? sliced member)
  | elemDrop segment =>
    rw [Scope.checkOp?] at checked
    split at checked
    · exact ⟨(Option.some.inj checked).symm, holds, typed.dropElements segment⟩
    · cases checked
  | tableCopy target source =>
    obtain ⟨goal, found, checked⟩ := Option.bind_eq_some_iff.mp checked
    obtain ⟨start, declared, checked⟩ := Option.bind_eq_some_iff.mp checked
    split at checked
    case isFalse => cases checked
    case isTrue alike =>
      obtain ⟨_, _, _, rest, rfl, one, two, three, leaves⟩ := Operands.exchange?_three checked
      refine withNumbers_isTyped (one ▸ goal.indexType_isNumbering)
        (two ▸ start.indexType_isNumbering)
        (three ▸ amountType_isNumbering _ start.indexType_isNumbering)
        fun _ _ _ => store.put_isTyped target _ found ?_ holds typed (leaves [] rfl)
      rintro words sliced word member
      rw [alike]
      exact (typed.tables source start declared).entries word
        (Array.mem_toList_iff.mp (mem_of_slice? sliced member))
  | tableGrow table =>
    obtain ⟨type, found, checked⟩ := Option.bind_eq_some_iff.mp checked
    obtain ⟨word, more, rest, rfl, entered, same, leaves⟩ := Operands.exchange?_two checked
    obtain ⟨_, rfl, narrow⟩ | ⟨_, rfl, wide⟩ := type.indexType_isNumbering.cases same
    · exact store.growTable_isTyped table _ found entered narrow.symm holds typed leaves
    · exact store.growTable_isTyped table _ found entered wide.symm holds typed leaves
  | tableSize table =>
    obtain ⟨type, found, checked⟩ := Option.bind_eq_some_iff.mp checked
    have sized := Table.type_sizeWord (typed.tables table type found)
      (store.tableAt table).entries.size
    exact ⟨Operands.exchange?_nil [_] checked
      (congrArg (fun type => [type]) sized), holds, typed⟩
  | tableFill table =>
    obtain ⟨type, found, checked⟩ := Option.bind_eq_some_iff.mp checked
    obtain ⟨index, word, count, rest, rfl, one, entered, three, leaves⟩ :=
      Operands.exchange?_three checked
    refine withNumber_isTyped (three ▸ type.indexType_isNumbering) fun _ =>
      withNumber_isTyped (one ▸ type.indexType_isNumbering) fun _ =>
        store.put_isTyped table _ found ?_ holds typed (leaves [] rfl)
    intro words copies entry member
    rw [Table.copies?] at copies
    split at copies
    · cases copies
      exact (List.mem_replicate.mp member).2 ▸ entered
    · cases copies
  | i32Const value =>
    exact ⟨Operands.exchange?_nil [.i32 value] checked rfl, holds, typed⟩
  | i64Const value =>
    exact ⟨Operands.exchange?_nil [.i64 value] checked rfl, holds, typed⟩
  | f32Const bits =>
    exact ⟨Operands.exchange?_nil [.f32 bits] checked rfl, holds, typed⟩
  | f64Const bits =>
    exact ⟨Operands.exchange?_nil [.f64 bits] checked rfl, holds, typed⟩
  | refNull type =>
    rw [Scope.checkOp?] at checked
    split at checked
    case isFalse => cases checked
    case isTrue known =>
      cases type with
      | func => exact ⟨Operands.exchange?_nil [.funcRef none] checked rfl, holds, typed⟩
      | host => exact ⟨Operands.exchange?_nil [.hostNull] checked rfl, holds, typed⟩
      | other => cases known rfl
  | refIsNull =>
    obtain ⟨word, rest, rfl, rfl⟩ := Operands.test?_ofWords checked
    exact ⟨rfl, holds, typed⟩
  | refFunc function =>
    rw [Scope.checkOp?] at checked
    split at checked
    · exact ⟨Operands.exchange?_nil [.funcRef (some function)] checked rfl, holds, typed⟩
    · cases checked
  | numeric operator => exact operator.step_isTyped holds typed checked

end TableKernels.Wasm
