import TableKernels.Proofs.Wasm.Effects
import TableKernels.Proofs.Wasm.Runs

/-!
# Soundness of the check

Code that the check lets pass never gets stuck. If it falls through, the operands are those that the
check ends with; if it jumps or returns, those that the target takes are on top; if it ends with a
call in its place, the arguments are there and the function that is called leaves the same results.
However it ends, locals, globals, tables and segments have the types that they had.
-/

namespace TableKernels.Wasm

variable {Host : Type} {scope : Scope} {labels : List (List ValType)}
  {after between last : Operands}
  {stack rest : List Word} {locals : Array Word} {store : Store Host}
  {program : Program Host} {room : Headroom}

/-! ## Outcomes -/

/-- An outcome leaves the operands that are expected where it goes, and typed locals and globals. -/
def Outcome.IsTyped (scope : Scope) (labels : List (List ValType)) (after : Operands) :
    Outcome Host → Prop
  | .next stack locals store =>
    after = .ofWords stack ∧ scope.Holds locals ∧ store.IsTyped scope
  | .jump depth stack locals store =>
    (∃ types, labels[depth]? = some types ∧ types.reverse <+: stack.map Word.type) ∧
      scope.Holds locals ∧ store.IsTyped scope
  | .ret stack store => scope.results.reverse <+: stack.map Word.type ∧ store.IsTyped scope
  | .tail function arguments store =>
    (∃ type, scope.functions[function.toNat]? = some type ∧
      arguments.map Word.type = type.params ∧ type.results = scope.results) ∧ store.IsTyped scope
  | .trap _ store => store.IsTyped scope
  | .exhausted => True
  | .stuck => False

theorem Operands.prefix_reverse_append (words rest : List Word) :
    (words.map Word.type).reverse <+: (words.reverse ++ rest).map Word.type := by
  rw [List.map_append, List.map_reverse]
  exact List.prefix_append _ _

theorem Operands.ofWords_append_congr {words others : List Word}
    (same : words.map Word.type = others.map Word.type) (rest : List Word) :
    ofWords (words.reverse ++ rest) = ofWords (others.reverse ++ rest) := by
  have listed (stack : List Word) : ofWords stack = ⟨(stack.map Word.type).map some, false⟩ := by
    rw [ofWords, List.map_map]
    rfl
  simp only [listed, List.map_append, List.map_reverse, same]

/-- What may be left behind a jump says that the jump finds what it takes. -/
theorem Scope.prefix_of_leave? {types : List ValType}
    (left : leave? (.ofWords stack) types = some after) :
    types.reverse <+: stack.map Word.type := by
  obtain ⟨_, popped, _⟩ := Option.map_eq_some_iff.mp left
  obtain ⟨words, rest, rfl, rfl, _⟩ := Operands.popAll?_ofWords popped
  exact Operands.prefix_reverse_append words rest

/-- The latest operands, as many as some types, are of these types. -/
theorem map_type_take_eq {types : List ValType}
    (top : types.reverse <+: stack.map Word.type) :
    (stack.take types.length).reverse.map Word.type = types := by
  rw [List.map_reverse, List.map_take, ← List.length_reverse, ← List.prefix_iff_eq_take.mp top,
    List.reverse_reverse]

namespace Outcome.IsTyped

variable {outcome : Outcome Host} {label results : List ValType}

theorem andThen (typed : outcome.IsTyped scope labels between)
    {through : List Word → Array Word → Store Host → Outcome Host}
    (falls : ∀ stack locals store, between = .ofWords stack → scope.Holds locals →
      store.IsTyped scope → (through stack locals store).IsTyped scope labels after) :
    (outcome.andThen through).IsTyped scope labels after := by
  cases outcome with
  | next stack locals store => exact falls stack locals store typed.1 typed.2.1 typed.2.2
  | jump | ret | tail | trap | exhausted | stuck => exact typed

/--
What the body of a block leaves is seen from outside the block. A jump to the block is one that
finds the results, unless it was dealt with already.
-/
theorem leaveBlock (typed : outcome.IsTyped scope (label :: labels) last)
    (exact : last.areExactly results = true)
    (target : ∀ stack locals store, outcome = .jump 0 stack locals store → label = results)
    (leaves : ∀ words : List Word, words.map Word.type = results →
      between = .ofWords (words.reverse ++ rest)) :
    (outcome.leaveBlock results.length rest).IsTyped scope labels between := by
  have goesOn {stack : List Word} (top : results.reverse <+: stack.map Word.type) :
      between = .ofWords (stack.take results.length ++ rest) := by
    have left := leaves _ (map_type_take_eq top)
    rwa [List.reverse_reverse] at left
  cases outcome with
  | next stack locals store =>
    obtain ⟨rfl, holds, stored⟩ := typed
    exact ⟨goesOn (Operands.areExactly_ofWords exact ▸ List.prefix_refl _), holds, stored⟩
  | jump depth stack locals store =>
    obtain ⟨⟨types, found, top⟩, holds, stored⟩ := typed
    cases depth with
    | zero =>
      obtain rfl : label = types := Option.some.inj found
      obtain rfl := target stack locals store rfl
      exact ⟨goesOn top, holds, stored⟩
    | succ outer => exact ⟨⟨types, found, top⟩, holds, stored⟩
  | ret | tail | trap | exhausted | stuck => exact typed

end Outcome.IsTyped

/-! ## Functions -/

/-- A function of the host leaves what its type promises if it is given what its type asks for. -/
def HostFunction.IsTyped (function : HostFunction Host) : Prop :=
  ∀ (arguments : List Word) (host : Host), arguments.map Word.type = function.type.params →
    ∀ results, (function.run arguments host).1 = .ok results →
      results.map Word.type = function.type.results

/-- What the code of a function may refer to. -/
def Scope.inside (scope : Scope) (routine : Routine) : Scope :=
  { scope with
    locals := routine.type.params ++ routine.locals.map Word.type
    results := routine.type.results }

theorem Store.isTyped_relocate {locals results : List ValType} :
    store.IsTyped { scope with locals, results } ↔ store.IsTyped scope :=
  ⟨fun typed => ⟨typed.globals, typed.memories, typed.tables, typed.elements⟩,
    fun typed => ⟨typed.globals, typed.memories, typed.tables, typed.elements⟩⟩

/-- The code of a function leaves what its type promises. -/
def Routine.IsTyped (scope : Scope) (routine : Routine) : Prop :=
  (scope.inside routine).checkFunction routine.code = true

/-- The functions have the types that the scope says and do what those promise. -/
structure Program.IsTyped (scope : Scope) (program : Program Host) : Prop where
  types : program.types = scope.types
  functions : scope.functions =
    program.imports.toList.map (·.type) ++ program.routines.toList.map (·.type)
  imports : ∀ function ∈ program.imports, function.IsTyped
  routines : ∀ routine ∈ program.routines, routine.IsTyped scope

theorem Program.IsTyped.relocate (typed : program.IsTyped scope) (locals results : List ValType) :
    program.IsTyped { scope with locals, results } :=
  ⟨typed.types, typed.functions, typed.imports, typed.routines⟩

theorem Program.IsTyped.find (typed : program.IsTyped scope) {index : UInt32} {type : FuncType}
    (found : scope.functions[index.toNat]? = some type) :
    (∃ function, program.imports[index.toNat]? = some function ∧ function.type = type ∧
        function.IsTyped) ∨
      (program.imports[index.toNat]? = none ∧
        ∃ routine, program.routines[index.toNat - program.imports.size]? = some routine ∧
          routine.type = type ∧ routine.IsTyped scope) := by
  rw [typed.functions] at found
  cases imported : program.imports[index.toNat]? with
  | some function =>
    obtain ⟨inside, rfl⟩ := Array.getElem?_eq_some_iff.mp imported
    rw [List.getElem?_append_left (by simpa using inside), List.getElem?_map,
      Array.getElem?_toList, imported] at found
    exact .inl ⟨_, rfl, Option.some.inj found, typed.imports _ (Array.getElem_mem inside)⟩
  | none =>
    have outside : program.imports.size ≤ index.toNat := Array.getElem?_eq_none_iff.mp imported
    rw [List.getElem?_append_right (by simpa using outside), List.getElem?_map,
      Array.getElem?_toList, List.length_map, Array.length_toList] at found
    obtain ⟨routine, defined, same⟩ := Option.map_eq_some_iff.mp found
    exact .inr ⟨rfl, routine, defined, same, typed.routines _ (Array.mem_of_getElem? defined)⟩

/-- What a call demands begins with the type of the function. -/
theorem Program.IsTyped.map_demand? (typed : program.IsTyped scope) (index : UInt32) :
    (program.demand? index).map (·.1) = scope.functions[index.toNat]? := by
  rw [demand?, typed.functions]
  split
  · next function imported =>
    obtain ⟨inside, rfl⟩ := Array.getElem?_eq_some_iff.mp imported
    rw [List.getElem?_append_left (by simpa using inside), List.getElem?_map,
      Array.getElem?_toList, imported]
    rfl
  · next imported =>
    have outside : program.imports.size ≤ index.toNat := Array.getElem?_eq_none_iff.mp imported
    rw [List.getElem?_append_right (by simpa using outside), List.getElem?_map,
      Array.getElem?_toList, List.length_map, Array.length_toList, Option.map_map]
    rfl

/-- A function that is called through a table as one of a type is of that type. -/
theorem Program.IsTyped.functions_of_callee (typed : program.IsTyped scope) {index : UInt32}
    {type : FuncType} (declared : scope.types[index.toNat]? = some type) {found? : Option Word}
    {function : UInt32} (called : program.callee index found? = .ok function) :
    scope.functions[function.toNat]? = some type := by
  rw [callee.eq_def, typed.types, declared] at called
  split at called
  · cases called
  · next function' =>
    have demanded := typed.map_demand? function'
    split at called
    · next found cells asked demand same =>
      cases same
      split at called
      · next equal =>
        cases called
        rw [demand] at demanded
        rw [← demanded, ← equal]
        rfl
      · cases called
    · cases called
  · cases called

theorem HostFunction.call_isTyped {function : HostFunction Host} (typed : function.IsTyped)
    {arguments : List Word} (given : arguments.map Word.type = function.type.params)
    (holds : scope.Holds locals) (stored : store.IsTyped scope)
    (leaves : ∀ results : List Word, results.map Word.type = function.type.results →
      between = .ofWords (results.reverse ++ rest)) :
    (function.call rest arguments locals store).IsTyped scope labels between := by
  have results := typed arguments store.host given
  rw [HostFunction.call]
  split <;> next same =>
    rw [same] at results
    first
      | exact ⟨leaves _ (results _ rfl), holds, stored.withHost _⟩
      | exact stored.withHost _

/-- A call of a function of the module leaves its results on top of what was below its arguments. -/
theorem Outcome.IsTyped.leaveCall {outcome : Outcome Host} {routine : Routine}
    (typed : outcome.IsTyped (scope.inside routine) [routine.type.results] last)
    (exact : last.areExactly routine.type.results = true)
    (ends : ∀ function arguments store, outcome ≠ .tail function arguments store)
    (holds : scope.Holds locals)
    (leaves : ∀ results : List Word, results.map Word.type = routine.type.results →
      between = .ofWords (results.reverse ++ rest)) :
    (outcome.leaveCall routine.type.results.length rest locals).IsTyped scope labels between := by
  -- A call is left alike at the end of the body, by a return and by a jump out of the body.
  have goesOn (stack : List Word) (store : Store Host)
      (top : routine.type.results.reverse <+: stack.map Word.type)
      (stored : store.IsTyped (scope.inside routine)) :
      (if routine.type.results.length ≤ stack.length then
        Outcome.next (stack.take routine.type.results.length ++ rest) locals store
        else .stuck).IsTyped scope labels between := by
    have enough : routine.type.results.length ≤ stack.length := by
      simpa using top.length_le
    have left := leaves _ (map_type_take_eq top)
    rw [List.reverse_reverse] at left
    rw [if_pos enough]
    exact ⟨left, holds, Store.isTyped_relocate.mp stored⟩
  cases outcome with
  | next stack _ store =>
    obtain ⟨rfl, _, stored⟩ := typed
    exact goesOn stack store (Operands.areExactly_ofWords exact ▸ List.prefix_refl _) stored
  | ret stack store => exact goesOn stack store typed.1 typed.2
  | jump depth stack _ store =>
    obtain ⟨⟨types, target, top⟩, _, stored⟩ := typed
    cases depth with
    | zero =>
      obtain rfl : routine.type.results = types := Option.some.inj target
      exact goesOn stack store top stored
    | succ depth => cases target
  | tail function arguments store => exact absurd rfl (ends function arguments store)
  | trap => exact Store.isTyped_relocate.mp typed
  | exhausted => trivial
  | stuck => exact typed

/-! ## Code -/

/-- A body that is let through begins with what its block takes and ends with what it leaves. -/
theorem Scope.checkCode?_of_checkBody {type : FuncType} {body : List Instr}
    (checked : scope.checkBody labels type body = true) :
    ∃ last, scope.checkCode? labels (Operands.none.pushAll type.params) body = some last ∧
      last.areExactly type.results = true := by
  rw [checkBody] at checked
  split at checked
  · next last passes => exact ⟨last, passes, checked⟩
  · cases checked

theorem Scope.exists_of_checkBody {params results : List ValType} {body : List Instr}
    (checked : scope.checkBody labels ⟨params, results⟩ body = true) {words : List Word}
    (typed : words.map Word.type = params) :
    ∃ last, scope.checkCode? labels (.ofWords words.reverse) body = some last ∧
      last.areExactly results = true := by
  have begins : Operands.none.pushAll params = .ofWords words.reverse := by
    rw [← typed, ← List.append_nil words.reverse]
    exact Operands.pushAll_ofWords words []
  exact begins ▸ checkCode?_of_checkBody checked

theorem take_reverse_append {words : List Word} {types : List ValType}
    (typed : words.map Word.type = types) (rest : List Word) :
    (words.reverse ++ rest).take types.length = words.reverse := by
  rw [← typed, List.length_map, ← List.length_reverse, List.take_left]

theorem drop_reverse_append {words : List Word} {types : List ValType}
    (typed : words.map Word.type = types) (rest : List Word) :
    (words.reverse ++ rest).drop types.length = rest := by
  rw [← typed, List.length_map, ← List.length_reverse, List.drop_left]

theorem popWords?_of_types {words : List Word} {types : List ValType}
    (typed : words.map Word.type = types) (rest : List Word) :
    popWords? types.length (words.reverse ++ rest) = some (words, rest) := by
  rw [← typed, List.length_map, popWords?_reverse_append]

/-- A block whose body is sound where it begins is sound. -/
theorem runBlock_isTyped {type : FuncType} {run : List Word → Outcome Host}
    (taken : (Operands.ofWords stack).exchange? type.params type.results = some between)
    (sound : ∀ words : List Word, words.map Word.type = type.params →
      ∃ last, (run words.reverse).IsTyped scope (type.results :: labels) last ∧
        last.areExactly type.results = true)
    {through : List Word → Array Word → Store Host → Outcome Host}
    (falls : ∀ stack locals store, between = .ofWords stack → scope.Holds locals →
      store.IsTyped scope → (through stack locals store).IsTyped scope labels after) :
    (runBlock (some type) stack run through).IsTyped scope labels after := by
  obtain ⟨words, rest, rfl, given, leaves⟩ := Operands.exchange?_ofWords taken
  obtain ⟨last, inner, exact⟩ := sound words given
  simp only [runBlock, take_reverse_append given, drop_reverse_append given]
  exact (inner.leaveBlock exact (fun _ _ _ _ => rfl) leaves).andThen falls

/-- The check of a call through a table names the type of the function and takes an index. -/
theorem Scope.callee?_eq_some {type table : UInt32} {found : FuncType} {indexType : ValType}
    (called : scope.callee? type table = some (found, indexType)) :
    scope.types[type.toNat]? = some found ∧ indexType.IsNumbering := by
  obtain ⟨declared, _, called⟩ := Option.bind_eq_some_iff.mp called
  split at called
  · obtain ⟨asked, same, called⟩ := Option.bind_eq_some_iff.mp called
    cases called
    exact ⟨same, declared.indexType_isNumbering⟩
  · cases called

theorem popNumber?_cons {word : Word} (numbering : word.type.IsNumbering) (rest : List Word) :
    ∃ number, popNumber? (word :: rest) = some (number, rest) := by
  rcases numbering with same | same <;> cases word <;> cases same <;> exact ⟨_, rfl⟩

/-- A call through a table that is let through finds an index on top of the stack. -/
theorem Scope.exists_popNumber? {type table : UInt32} {found : FuncType} {indexType : ValType}
    {operands : Operands} (called : scope.callee? type table = some (found, indexType))
    (popped : (Operands.ofWords stack).pop? indexType = some operands) :
    scope.types[type.toNat]? = some found ∧
      ∃ number rest, popNumber? stack = some (number, rest) ∧ operands = .ofWords rest := by
  obtain ⟨declared, numbering⟩ := Scope.callee?_eq_some called
  obtain ⟨word, rest, rfl, rfl, rfl⟩ := Operands.pop?_ofWords popped
  obtain ⟨number, numbered⟩ := popNumber?_cons numbering rest
  exact ⟨declared, number, rest, numbered, rfl⟩

/-- A call that is let through is let through again for a function of the same type. -/
theorem Scope.checkCode?_call {function : UInt32} {type : FuncType} {code : List Instr}
    {operands : Operands} (found : scope.functions[function.toNat]? = some type)
    (exchanged : operands.exchange? type.params type.results = some between)
    (checked : scope.checkCode? labels between code = some after) :
    scope.checkCode? labels operands (.call function :: code) = some after := by
  simp only [checkCode?, checkInstr?, found, Option.bind_eq_bind, Option.bind_some, exchanged,
    checked]

/-- A last call that is let through takes its arguments and leaves the results of the function. -/
theorem Scope.returnCall?_eq_some {operands : Operands} {type : FuncType}
    (checked : scope.returnCall? operands type = some between) :
    type.results = scope.results ∧ leave? operands type.params = some between := by
  rw [returnCall?] at checked
  split at checked
  · next same => exact ⟨same, checked⟩
  · cases checked

/-- A jump that is chosen among labels finds what its target takes. -/
theorem Scope.exists_label_of_mayChoose {targets : List UInt32} {default : UInt32}
    {types : List ValType} (found : labels[default.toNat]? = some types)
    (left : leave? (.ofWords stack) types = some after)
    (chosen : mayChoose (.ofWords stack) labels targets types.length = true) (index : ℕ) :
    ∃ types, labels[((targets[index]?).getD default).toNat]? = some types ∧
      types.reverse <+: stack.map Word.type := by
  cases listed : targets[index]? with
  | none => exact ⟨types, found, prefix_of_leave? left⟩
  | some target =>
    have one := List.all_eq_true.mp chosen target (List.mem_of_getElem? listed)
    obtain ⟨others, label, both⟩ := (Option.any_eq_true _ _).mp one
    obtain ⟨rest, popped⟩ := Option.isSome_iff_exists.mp (Bool.and_eq_true_iff.mp both).2
    obtain ⟨words, rest, rfl, rfl, _⟩ := Operands.popAll?_ofWords popped
    exact ⟨_, label, Operands.prefix_reverse_append words rest⟩

/-- Code that the check lets pass does what the check expects, whatever bound it runs under. -/
theorem exec_isTyped (typed : program.IsTyped scope) (fuel : ℕ) (room : Headroom)
    {code : List Instr} (stack : List Word)
    (checked : scope.checkCode? labels (.ofWords stack) code = some after)
    (holds : scope.Holds locals) (stored : store.IsTyped scope) :
    (exec program fuel room code stack locals store).IsTyped scope labels after := by
  -- A call runs code in the scope of another function, so the scope varies with the bound.
  induction fuel generalizing scope labels code stack locals store after room with
  | zero =>
    rw [exec]
    trivial
  | succ fuel hypothesis =>
    cases code with
    | nil =>
      rw [Scope.checkCode?] at checked
      rw [exec]
      exact ⟨(Option.some.inj checked).symm, holds, stored⟩
    | cons instr code =>
      have again := checked
      rw [Scope.checkCode?] at checked
      split at checked
      case h_2 => cases checked
      case h_1 between first =>
      have goesOn (stack : List Word) (locals : Array Word) (store : Store Host)
          (same : between = .ofWords stack) (holds : scope.Holds locals)
          (stored : store.IsTyped scope) :
          (exec program fuel room code stack locals store).IsTyped scope labels after :=
        hypothesis typed room stack (same ▸ checked) holds stored
      -- A body runs on what its block takes.
      have body {label results params : List ValType} {body : List Instr}
          (passes : scope.checkBody (label :: labels) ⟨params, results⟩ body = true)
          (words : List Word) (given : words.map Word.type = params) :
          ∃ last, (exec program fuel room body words.reverse locals store).IsTyped scope
            (label :: labels) last ∧ last.areExactly results = true := by
        obtain ⟨last, inner, exact⟩ := Scope.exists_of_checkBody passes given
        exact ⟨last, hypothesis typed room _ inner holds stored, exact⟩
      rw [Scope.checkInstr?.eq_def] at first
      cases instr with
      | op op =>
        have step := op.step_isTyped first holds stored
        rw [exec]
        split <;> next same =>
          rw [same] at step
          first
            | exact goesOn _ _ _ step.1 step.2.1 step.2.2
            | exact step
      | unreachable =>
        rw [exec]
        exact stored
      | blockOf blockType inner =>
        obtain ⟨⟨params, results⟩, declared, first⟩ := Option.bind_eq_some_iff.mp first
        split at first
        case isFalse => cases first
        case isTrue passes =>
          rw [exec, typed.types, declared]
          exact runBlock_isTyped first (body passes) goesOn
      | loopOf blockType inner =>
        obtain ⟨⟨params, results⟩, declared, first⟩ := Option.bind_eq_some_iff.mp first
        split at first
        case isFalse => cases first
        case isTrue passes =>
          obtain ⟨words, rest, rfl, given, leaves⟩ := Operands.exchange?_ofWords first
          obtain ⟨last, ends, exact⟩ := body passes words given
          rw [exec, typed.types, declared]
          simp only [take_reverse_append given, drop_reverse_append given]
          split
          -- A jump to a loop runs the loop again, which the check passed as it stands.
          · next stack locals store jumps =>
            rw [jumps] at ends
            obtain ⟨⟨_, ⟨⟩, top⟩, holds, stored⟩ := ends
            have alike := Operands.ofWords_append_congr
              ((map_type_take_eq top).trans given.symm) rest
            rw [List.reverse_reverse] at alike
            exact hypothesis typed room _ (alike ▸ again) holds stored
          · next ends' => exact (ends.leaveBlock exact
              (fun _ _ _ jumps => absurd jumps (ends' _ _ _)) leaves).andThen goesOn
      | branch blockType inner other =>
        obtain ⟨⟨params, results⟩, declared, first⟩ := Option.bind_eq_some_iff.mp first
        split at first
        case isFalse => cases first
        case isTrue passes =>
          obtain ⟨operands, popped, first⟩ := Option.bind_eq_some_iff.mp first
          obtain ⟨word, rest, rfl, same, rfl⟩ := Operands.pop?_ofWords popped
          obtain ⟨one, two⟩ := Bool.and_eq_true_iff.mp passes
          cases word <;> cases same
          unfold exec
          simp only [typed.types, declared]
          refine runBlock_isTyped first (fun words given => ?_) goesOn
          split
          · exact body two words given
          · exact body one words given
      | br target =>
        obtain ⟨types, label, left⟩ := Option.bind_eq_some_iff.mp first
        rw [exec]
        exact ⟨⟨types, label, Scope.prefix_of_leave? left⟩, holds, stored⟩
      | brIf target =>
        obtain ⟨types, label, first⟩ := Option.bind_eq_some_iff.mp first
        obtain ⟨operands, popped, first⟩ := Option.bind_eq_some_iff.mp first
        obtain ⟨word, rest, rfl, same, rfl⟩ := Operands.pop?_ofWords popped
        obtain ⟨words, below, rfl, rfl, leaves⟩ := Operands.exchange?_ofWords first
        cases word <;> cases same
        unfold exec
        simp only
        split
        · exact goesOn _ _ _ (leaves words rfl) holds stored
        -- The jump takes its operands off the stack only in the block that it ends.
        · exact ⟨⟨_, label, Operands.prefix_reverse_append words below⟩, holds, stored⟩
      | brTable targets default =>
        obtain ⟨types, label, others⟩ := Option.bind_eq_some_iff.mp first
        obtain ⟨operands, popped, chosen⟩ := Option.bind_eq_some_iff.mp others
        obtain ⟨word, rest, rfl, same, rfl⟩ := Operands.pop?_ofWords popped
        cases word <;> cases same
        obtain ⟨chosen, left⟩ := Option.ite_none_right_eq_some.mp chosen
        unfold exec
        exact ⟨Scope.exists_label_of_mayChoose label left chosen _, holds, stored⟩
      | ret =>
        rw [exec]
        exact ⟨Scope.prefix_of_leave? first, stored⟩
      | call index =>
        obtain ⟨type, found, exchanged⟩ := Option.bind_eq_some_iff.mp first
        obtain ⟨arguments, rest, rfl, given, leaves⟩ := Operands.exchange?_ofWords exchanged
        rw [exec]
        rcases typed.find found with ⟨function, imported, rfl, works⟩ |
          ⟨outside, routine, defined, rfl, passes⟩
        · simp only [imported, popWords?_of_types given]
          split
          · exact (HostFunction.call_isTyped works given holds stored leaves).andThen goesOn
          · exact stored
        · simp only [outside, defined, popWords?_of_types given]
          split
          · next inside entered =>
            have begins : (scope.inside routine).Holds (arguments ++ routine.locals).toArray := by
              simp only [Scope.Holds, Scope.inside, List.map_append, given]
            obtain ⟨last, passes, exact⟩ :=
              Scope.exists_of_checkBody passes (rfl : ([] : List Word).map Word.type = [])
            have inner := hypothesis (typed.relocate _ _) inside [] passes begins
              (Store.isTyped_relocate.mpr stored)
            split
            -- The function that is called last leaves the same results, on top of the same rest.
            · next function arguments' store' ends =>
              rw [ends] at inner
              obtain ⟨⟨type, found', given', same⟩, stored⟩ := inner
              have once := Operands.exchange?_reverse_append arguments rest routine.type.results
              have twice := Operands.exchange?_reverse_append arguments' rest type.results
              rw [given, exchanged] at once
              rw [given'] at twice
              refine hypothesis typed room _ (Scope.checkCode?_call found' (twice.trans ?_) checked)
                holds (Store.isTyped_relocate.mp stored)
              rw [once]
              exact congrArg (fun results => some (Operands.pushAll _ results)) same
            · next ends =>
              exact (inner.leaveCall exact (fun _ _ _ same => ends _ _ _ same) holds
                leaves).andThen goesOn
          · exact stored
      | callIndirect type table =>
        obtain ⟨⟨found, indexType⟩, called, first⟩ := Option.bind_eq_some_iff.mp first
        obtain ⟨operands, popped, first⟩ := Option.bind_eq_some_iff.mp first
        obtain ⟨declared, number, rest, numbered, rfl⟩ := Scope.exists_popNumber? called popped
        rw [exec, numbered]
        dsimp only
        split
        · next function callee =>
          exact hypothesis typed room rest (Scope.checkCode?_call
            (typed.functions_of_callee declared callee) first checked) holds stored
        · exact stored
      | returnCall function =>
        obtain ⟨type, found, first⟩ := Option.bind_eq_some_iff.mp first
        obtain ⟨same, left⟩ := Scope.returnCall?_eq_some first
        obtain ⟨_, popped, _⟩ := Option.map_eq_some_iff.mp left
        obtain ⟨words, rest, rfl, given, _⟩ := Operands.popAll?_ofWords popped
        obtain ⟨⟨_, cells⟩, demanded, rfl⟩ :=
          Option.map_eq_some_iff.mp ((typed.map_demand? function).trans found)
        rw [exec, demanded]
        simp only [popWords?_of_types given]
        split
        · exact ⟨⟨_, found, given, same⟩, stored⟩
        · exact stored
      | returnCallIndirect type table =>
        obtain ⟨⟨found, indexType⟩, called, first⟩ := Option.bind_eq_some_iff.mp first
        obtain ⟨operands, popped, first⟩ := Option.bind_eq_some_iff.mp first
        obtain ⟨declared, number, rest, numbered, rfl⟩ := Scope.exists_popNumber? called popped
        rw [exec, numbered]
        dsimp only
        split
        · next function callee =>
          refine hypothesis typed room rest ?_ holds stored
          simp only [Scope.checkCode?, Scope.checkInstr?, Option.bind_eq_bind,
            typed.functions_of_callee declared callee, Option.bind_some]
          exact first ▸ checked
        · exact stored

/-! ## Calls from outside -/

/-- A call from outside that is given what the function asks for leaves a typed store. -/
theorem Program.IsTyped.invoke (typed : program.IsTyped scope) {index : UInt32} {type : FuncType}
    (found : scope.functions[index.toNat]? = some type) (arguments : List Word)
    (given : arguments.map Word.type = type.params) (stored : store.IsTyped scope) :
    (program.invoke index arguments store).Leaves (·.IsTyped scope) := by
  -- A call from outside runs as the one instruction of code without locals and without results.
  obtain ⟨outer, defined⟩ : ∃ outer, outer = { scope with locals := [], results := [] } := ⟨_, rfl⟩
  have checked : outer.checkCode? [] (.ofWords arguments.reverse) [.call index] =
      some (.pushAll .none type.results) := by
    have exchanged := Operands.exchange?_reverse_append arguments [] type.results
    rw [List.append_nil, given] at exchanged
    refine Scope.checkCode?_call (by rw [defined, found]) exchanged ?_
    rw [Scope.checkCode?]
    rfl
  have outside (store : Store Host) : store.IsTyped outer ↔ store.IsTyped scope := by
    rw [defined, Store.isTyped_relocate]
  have typed' : program.IsTyped outer := defined ▸ typed.relocate [] []
  have holds : outer.Holds #[] := by
    subst defined
    rfl
  have ends := exec_isTyped typed' stepBound (Headroom.full (program.resultCount index))
    arguments.reverse checked holds ((outside store).mpr stored)
  rw [Program.invoke]
  split <;> next same =>
    rw [same] at ends
    first
      | exact (outside _).mp ends.2.2
      | exact (outside _).mp ends.2
      | exact (outside _).mp ends
      | trivial

end TableKernels.Wasm
