import Mathlib
import TableKernels.Compiled.Sieve
import TableKernels.Wasm.Machine

/-!
# Rules for running code

`Ends` says in what outcome code ends, whatever bound from a cost on it runs under. `Passes` is for
code that falls through: it leads from one state to another, and whatever follows it goes on from
there. Costs bound the length of a chain of steps, so of the body of a block and the code behind it
only the longer one counts, and a loop costs little more than the number of its turns.
-/

namespace TableKernels.Wasm

variable {Host : Type}

/-- Under every bound from `cost` on, code ends in the outcome. -/
def Ends (program : Program Host) (room : Headroom) (cost : ℕ) (code : List Instr)
    (stack : List Word) (locals : Array Word) (store : Store Host) (outcome : Outcome Host) :
    Prop :=
  ∀ fuel, cost ≤ fuel → exec program fuel room code stack locals store = outcome

/-- Code falls through from one state to another, at a cost. -/
def Passes (program : Program Host) (room : Headroom) (cost : ℕ) (code : List Instr)
    (stack : List Word) (locals : Array Word) (store : Store Host)
    (stack' : List Word) (locals' : Array Word) (store' : Store Host) : Prop :=
  ∀ after rest outcome, Ends program room after rest stack' locals' store' outcome →
    Ends program room (after + cost) (code ++ rest) stack locals store outcome

/-- The state after plain instructions in a row, if they are all plain and none traps. -/
def straight : List Instr → List Word → Array Word → Store Host →
    Option (List Word × Array Word × Store Host)
  | [], stack, locals, store => some (stack, locals, store)
  | .op op :: code, stack, locals, store =>
    match op.step stack locals store with
    | .next stack locals store => straight code stack locals store
    | .trap _ _ | .stuck => none
  | _ :: _, _, _, _ => none

/-- An outcome that no block keeps to itself. -/
def Outcome.Final : Outcome Host → Prop
  | .ret _ _ | .trap _ _ => True
  | _ => False

variable {program : Program Host} {room inside : Headroom}
  {cost cost' cost'' : ℕ} {code code' body condition : List Instr}
  {stack stack' stack'' rest : List Word} {locals locals' locals'' : Array Word}
  {store store' store'' : Store Host} {outcome : Outcome Host}

namespace Ends

theorem mono (ends : Ends program room cost code stack locals store outcome)
    (le : cost ≤ cost') : Ends program room cost' code stack locals store outcome :=
  fun fuel enough => ends fuel (le.trans enough)

theorem of_exec (run : ∀ fuel, exec program (fuel + cost) room code stack locals store = outcome) :
    Ends program room cost code stack locals store outcome := by
  intro fuel enough
  obtain ⟨fuel, rfl⟩ := Nat.exists_eq_add_of_le' enough
  exact run fuel

theorem nil : Ends program room 1 [] stack locals store (.next stack locals store) :=
  of_exec fun fuel => exec_nil program fuel room stack locals store

end Ends

namespace Passes

theorem ends (passes : Passes program room cost code stack locals store stack' locals' store') :
    Ends program room (cost + 1) code stack locals store (.next stack' locals' store') := by
  have run := passes 1 [] _ Ends.nil
  rw [List.append_nil, Nat.add_comm] at run
  exact run

theorem mono (passes : Passes program room cost code stack locals store stack' locals' store')
    (le : cost ≤ cost') :
    Passes program room cost' code stack locals store stack' locals' store' :=
  fun after rest outcome ends => (passes after rest outcome ends).mono (by omega)

theorem nil : Passes program room 0 [] stack locals store stack locals store :=
  fun _ _ _ ends => ends

theorem append (first : Passes program room cost code stack locals store stack' locals' store')
    (second : Passes program room cost' code' stack' locals' store' stack'' locals'' store'') :
    Passes program room (cost + cost') (code ++ code') stack locals store
      stack'' locals'' store'' := by
  intro after rest outcome ends
  rw [List.append_assoc]
  exact (first _ _ _ (second _ _ _ ends)).mono (by omega)

theorem cons {instr : Instr}
    (first : Passes program room cost [instr] stack locals store stack' locals' store')
    (second : Passes program room cost' code stack' locals' store' stack'' locals'' store'') :
    Passes program room (cost + cost') (instr :: code) stack locals store
      stack'' locals'' store'' :=
  first.append second

/-- Plain code falls through when each of its instructions does. -/
theorem of_exec (run : ∀ fuel rest,
    exec program (fuel + cost) room (code ++ rest) stack locals store =
      exec program fuel room rest stack' locals' store') :
    Passes program room cost code stack locals store stack' locals' store' := by
  intro after rest outcome ends fuel enough
  obtain ⟨fuel, rfl⟩ := Nat.exists_eq_add_of_le' (Nat.le_of_add_left_le enough)
  rw [run]
  exact ends fuel (by omega)

theorem op {op : Op} (step : op.step stack locals store = .next stack' locals' store') :
    Passes program room 1 [.op op] stack locals store stack' locals' store' := by
  refine of_exec fun fuel rest => ?_
  rw [List.singleton_append, exec, step]

/-- Plain instructions in a row fall through to the state that they compute. -/
theorem of_straight (run : straight code stack locals store = some (stack', locals', store'))
    (length : code.length = cost) :
    Passes program room cost code stack locals store stack' locals' store' := by
  subst length
  induction code generalizing stack locals store with
  | nil =>
    cases run
    exact nil
  | cons instr code hypothesis =>
    cases instr with
    | op instr =>
      rw [straight] at run
      split at run
      · next step => exact ((op step).cons (hypothesis run)).mono (by rw [List.length_cons]; omega)
      · cases run
      · cases run
    | _ => cases run

/-- An operator on one operand leaves the operands below as they are. -/
theorem unary {operator : Operator} {word result : Word} (unary : operator.isUnary = true)
    (evaluates : operator.apply1 word = .result result) :
    Passes program room 1 [.op (.numeric operator)] (word :: stack) locals store
      (result :: stack) locals store := by
  refine op ?_
  simp only [Op.step, Operator.step, unary, if_true, evaluates]

/-- A load from the first memory leaves the word that it reads. -/
theorem load {form : Load} {alignment base : UInt32} {offset : UInt64} {word : Word}
    (read : form.read store.memory (base.toNat + offset.toNat) = some word) :
    Passes program room 1 [.op (.load form (.first alignment offset))] (.i32 base :: stack) locals
      store (word :: stack) locals store := by
  refine op ?_
  simp only [Op.step, withNumber, popNumber?, MemoryPlace.load, MemoryPlace.address,
    MemoryPlace.first, Store.memoryAt, if_true, read]

/-- A save to the first memory that fits changes bytes of the memory and nothing else. -/
theorem save {form : Save} {alignment base : UInt32} {offset bits : UInt64} {word : Word}
    (saved : form.bits? word = some bits)
    (inside : base.toNat + offset.toNat + form.size ≤ store.memory.size) :
    Passes program room 1 [.op (.save form (.first alignment offset))]
      (word :: .i32 base :: stack) locals store stack locals
      { store with memory := store.memory.withBytes fun bytes =>
          form.write bits bytes (base.toNat + offset.toNat) } := by
  refine op ?_
  simp only [Op.step, saved, withNumber, popNumber?, MemoryPlace.save, MemoryPlace.address,
    MemoryPlace.first, Store.memoryAt, if_true, inside]
  rfl

/-- What follows code that falls through decides how both end. -/
theorem then_ends
    (first : Passes program room cost code stack locals store stack' locals' store')
    (second : Ends program room cost' code' stack' locals' store' outcome) :
    Ends program room (cost + cost') (code ++ code') stack locals store outcome :=
  (first _ _ _ second).mono (by omega)

end Passes

/-! ## Blocks -/

theorem exec_block (program : Program Host) (fuel : ℕ) (room : Headroom) (body code : List Instr)
    (stack : List Word) (locals : Array Word) (store : Store Host) :
    exec program (fuel + 1) room (.block body :: code) stack locals store =
      ((exec program fuel room body [] locals store).leaveBlock 0 stack).andThen
        (exec program fuel room code) := by
  rw [exec]
  rfl

theorem exec_ifThen (program : Program Host) (fuel : ℕ) (room : Headroom) (condition : UInt32)
    (body code : List Instr) (stack : List Word) (locals : Array Word) (store : Store Host) :
    exec program (fuel + 1) room (.ifThen body :: code) (.i32 condition :: stack) locals store =
      ((exec program fuel room (if condition = 0 then [] else body) [] locals store).leaveBlock 0
        stack).andThen (exec program fuel room code) := by
  rw [exec]
  rfl

theorem Outcome.Final.leaveBlock (final : outcome.Final) (resultCount : ℕ) (rest : List Word)
    (through : List Word → Array Word → Store Host → Outcome Host) :
    (outcome.leaveBlock resultCount rest).andThen through = outcome := by
  cases outcome with
  | ret | trap => rfl
  | _ => cases final

theorem Passes.block
    (inner : Ends program room cost body [] locals store (.jump 0 stack' locals' store')) :
    Passes program room (cost + 1) [.block body] stack locals store stack locals' store' := by
  intro after rest outcome ends fuel enough
  obtain ⟨fuel, rfl⟩ := Nat.exists_eq_add_of_le' (by omega : 1 ≤ fuel)
  rw [List.singleton_append, exec_block, inner fuel (by omega)]
  exact ends fuel (by omega)

theorem Ends.block_final (inner : Ends program room cost body [] locals store outcome)
    (final : outcome.Final) :
    Ends program room (cost + 1) (.block body :: code) stack locals store outcome := by
  intro fuel enough
  obtain ⟨fuel, rfl⟩ := Nat.exists_eq_add_of_le' (by omega : 1 ≤ fuel)
  rw [exec_block, inner fuel (by omega), final.leaveBlock]

theorem Passes.ifThen_zero (body : List Instr) :
    Passes program room 1 [.ifThen body] (.i32 0 :: stack) locals store stack locals store := by
  refine of_exec fun fuel rest => ?_
  rw [List.singleton_append, exec_ifThen, if_pos rfl]
  -- Without a bound left, neither the empty part nor what follows it runs.
  cases fuel with
  | zero => rfl
  | succ fuel =>
    rw [exec_nil]
    rfl

theorem Passes.ifThen {condition : UInt32} (holds : condition ≠ 0) (stack : List Word)
    (inner : Passes program room cost body [] locals store stack' locals' store') :
    Passes program room (cost + 2) [.ifThen body] (.i32 condition :: stack) locals store
      stack locals' store' := by
  intro after rest outcome ends fuel enough
  obtain ⟨fuel, rfl⟩ := Nat.exists_eq_add_of_le' (by omega : 1 ≤ fuel)
  rw [List.singleton_append, exec_ifThen, if_neg holds, inner.ends fuel (by omega)]
  exact ends fuel (by omega)

theorem Ends.ifThen_final {condition : UInt32} (holds : condition ≠ 0) (stack : List Word)
    (code : List Instr) (inner : Ends program room cost body [] locals store outcome)
    (final : outcome.Final) :
    Ends program room (cost + 1) (.ifThen body :: code) (.i32 condition :: stack) locals store
      outcome := by
  intro fuel enough
  obtain ⟨fuel, rfl⟩ := Nat.exists_eq_add_of_le' (by omega : 1 ≤ fuel)
  rw [exec_ifThen, if_neg holds, inner fuel (by omega), final.leaveBlock]

/-! ## Loops -/

theorem exec_loop (program : Program Host) (fuel : ℕ) (room : Headroom) (body code : List Instr)
    (stack : List Word) (locals : Array Word) (store : Store Host) :
    exec program (fuel + 1) room (.loop body :: code) stack locals store =
      match exec program fuel room body [] locals store with
      | .jump 0 _ locals store => exec program fuel room (.loop body :: code) stack locals store
      | outcome => (outcome.leaveBlock 0 stack).andThen (exec program fuel room code) := by
  rw [exec]
  rfl

/-- The loop inside `Compiled.loopUntil`. -/
def turns (condition body : List Instr) : List Instr :=
  [.loop (condition ++ .brIf 1 :: body ++ [.br 0])]

theorem Ends.turns_stop {value : UInt32} (holds : value ≠ 0)
    (test : Passes program room cost condition [] locals store [.i32 value] locals' store') :
    Ends program room (cost + 2) (turns condition body) [] locals store
      (.jump 0 [] locals' store') := by
  intro fuel enough
  obtain ⟨fuel, rfl⟩ := Nat.exists_eq_add_of_le' (by omega : 1 ≤ fuel)
  have leave : Ends program room 1 (.brIf 1 :: body ++ [.br 0]) [.i32 value] locals' store'
      (.jump 1 [] locals' store') := by
    refine Ends.of_exec fun fuel => ?_
    rw [List.cons_append, exec]
    simp only [holds, if_false]
    rfl
  rw [turns, List.append_assoc, exec_loop, test _ _ _ leave fuel (by omega)]
  rfl

theorem Passes.stay :
    Passes program room 1 [.brIf 1] [.i32 0] locals store [] locals store :=
  of_exec fun _ _ => rfl

/-- A loop whose condition does not hold takes a turn and starts again. -/
theorem Ends.turns_again
    (test : Passes program room cost condition [] locals store [.i32 0] locals' store')
    (turn : Passes program room cost' body [] locals' store' stack'' locals'' store'')
    (again : Ends program room cost'' (turns condition body) [] locals'' store'' outcome) :
    Ends program room (max (cost + cost' + 2) cost'' + 1) (turns condition body) [] locals store
      outcome := by
  intro fuel enough
  obtain ⟨fuel, rfl⟩ := Nat.exists_eq_add_of_le' (by omega : 1 ≤ fuel)
  have back : Ends program room 1 [.br 0] stack'' locals'' store''
      (.jump 0 stack'' locals'' store'') :=
    Ends.of_exec fun _ => rfl
  have once : exec program fuel room (condition ++ .brIf 1 :: body ++ [.br 0]) [] locals store =
      .jump 0 stack'' locals'' store'' := by
    rw [List.append_assoc]
    exact test _ _ _ (Passes.stay _ _ _ (turn _ _ _ back)) fuel (by omega)
  rw [turns, exec_loop, once]
  exact again fuel (by omega)

theorem Ends.turns_final (body : List Instr)
    (test : Passes program room cost condition [] locals store [.i32 0] locals' store')
    (turn : Ends program room cost' (body ++ [.br 0]) [] locals' store' outcome)
    (final : outcome.Final) :
    Ends program room (cost + cost' + 2) (turns condition body) [] locals store outcome := by
  intro fuel enough
  obtain ⟨fuel, rfl⟩ := Nat.exists_eq_add_of_le' (by omega : 1 ≤ fuel)
  have once : exec program fuel room (condition ++ .brIf 1 :: body ++ [.br 0]) [] locals store =
      outcome := by
    rw [List.append_assoc]
    exact test _ _ _ (Passes.stay _ _ _ turn) fuel (by omega)
  rw [turns, exec_loop, once]
  cases outcome with
  | ret | trap => rfl
  | _ => cases final

theorem Passes.loopUntil
    (inner : Ends program room cost (turns condition body) [] locals store
      (.jump 0 stack' locals' store')) :
    Passes program room (cost + 1) [Compiled.loopUntil condition body] stack locals store
      stack locals' store' :=
  Passes.block inner

theorem Ends.loopUntil_final (code : List Instr)
    (inner : Ends program room cost (turns condition body) [] locals store outcome)
    (final : outcome.Final) :
    Ends program room (cost + 1) (Compiled.loopUntil condition body :: code) stack locals store
      outcome :=
  Ends.block_final inner final

/-! ## Calls -/

theorem Passes.callImport (rest : List Word) {index : UInt32} (function : HostFunction Host)
    {arguments : List Word} (results : List Word) {host : Host}
    (found : program.imports[index.toNat]? = some function)
    (taken : popWords? function.type.params.length stack = some (arguments, rest))
    (lent : room.canLend function.type = true)
    (run : function.run arguments store.host = (.ok results, host)) :
    Passes program room 1 [.call index] stack locals store (results.reverse ++ rest) locals
      { store with host } := by
  refine Passes.of_exec fun fuel code => ?_
  rw [List.singleton_append, exec]
  simp only [found, taken, lent, if_true, HostFunction.call, run]
  rfl

/-- Calling a function of the module that falls through or returns. -/
theorem Passes.callRoutine {index : UInt32} {routine : Routine} {arguments : List Word}
    (absent : program.imports[index.toNat]? = none)
    (found : program.routines[index.toNat - program.imports.size]? = some routine)
    (taken : popWords? routine.type.params.length stack = some (arguments, rest))
    (entered : room.enter? routine.cells = some inside)
    (run : Ends program inside cost routine.code [] (arguments ++ routine.locals).toArray store
      outcome)
    (left : outcome.leaveCall routine.type.results.length rest locals =
      .next stack' locals store') :
    Passes program room (cost + 1) [.call index] stack locals store stack' locals store' := by
  intro after code ending ends fuel enough
  obtain ⟨fuel, rfl⟩ := Nat.exists_eq_add_of_le' (by omega : 1 ≤ fuel)
  rw [List.singleton_append, exec]
  simp only [absent, found, taken, entered, run fuel (by omega)]
  cases outcome with
  | tail => cases left
  | _ =>
    exact (congrArg (·.andThen (exec program fuel room code)) left).trans (ends fuel (by omega))

theorem Ends.callRoutine_trap {index : UInt32} {routine : Routine} {arguments : List Word}
    {trap : Trap}
    (absent : program.imports[index.toNat]? = none)
    (found : program.routines[index.toNat - program.imports.size]? = some routine)
    (taken : popWords? routine.type.params.length stack = some (arguments, rest))
    (entered : room.enter? routine.cells = some inside)
    (run : Ends program inside cost routine.code [] (arguments ++ routine.locals).toArray store
      (.trap trap store')) :
    Ends program room (cost + 1) (.call index :: code) stack locals store
      (.trap trap store') := by
  intro fuel enough
  obtain ⟨fuel, rfl⟩ := Nat.exists_eq_add_of_le' (by omega : 1 ≤ fuel)
  rw [exec]
  simp only [absent, found, taken, entered, run fuel (by omega), Outcome.leaveCall]
  rfl

/-! ## Calls from outside -/

theorem popWords?_reverse {arguments : List Word} {count : ℕ} (length : arguments.length = count) :
    popWords? count arguments.reverse = some (arguments, []) := by
  rw [← length, ← List.append_nil arguments.reverse, popWords?_reverse_append]

theorem resultCount_of_routine {index : UInt32} {routine : Routine}
    (absent : program.imports[index.toNat]? = none)
    (found : program.routines[index.toNat - program.imports.size]? = some routine) :
    program.resultCount index = routine.type.results.length := by
  simp only [Program.resultCount, Program.demand?, absent, found, Option.map_some]

/-- A call from outside of a function that falls through or returns within the bound. -/
theorem Program.invoke_eq_done (cost : ℕ) {index : UInt32} {routine : Routine}
    (arguments results : List Word) (absent : program.imports[index.toNat]? = none)
    (found : program.routines[index.toNat - program.imports.size]? = some routine)
    (length : arguments.length = routine.type.params.length)
    (entered : (Headroom.full routine.type.results.length).enter? routine.cells = some inside)
    (run : Ends program inside cost routine.code [] (arguments ++ routine.locals).toArray store
      outcome)
    (left : outcome.leaveCall routine.type.results.length [] #[] = .next results #[] store')
    (bound : cost + 2 ≤ stepBound) :
    program.invoke index arguments store = .done results.reverse store' := by
  have call : Passes program (Headroom.full routine.type.results.length) (cost + 1) [.call index]
      arguments.reverse #[] store results #[] store' :=
    Passes.callRoutine absent found (popWords?_reverse length) entered run left
  unfold Program.invoke
  rw [resultCount_of_routine absent found]
  simp only [call.ends stepBound bound]

/-- A call from outside of a function that traps within the bound. -/
theorem Program.invoke_eq_trap {index : UInt32} {routine : Routine} {arguments : List Word}
    {trap : Trap}
    (absent : program.imports[index.toNat]? = none)
    (found : program.routines[index.toNat - program.imports.size]? = some routine)
    (length : arguments.length = routine.type.params.length)
    (entered : (Headroom.full routine.type.results.length).enter? routine.cells = some inside)
    (run : Ends program inside cost routine.code [] (arguments ++ routine.locals).toArray store
      (.trap trap store'))
    (bound : cost + 1 ≤ stepBound) :
    program.invoke index arguments store = .trap trap store' := by
  have call : Ends program (Headroom.full routine.type.results.length) (cost + 1) [.call index]
      arguments.reverse #[] store (.trap trap store') :=
    Ends.callRoutine_trap absent found (popWords?_reverse length) entered run
  unfold Program.invoke
  rw [resultCount_of_routine absent found]
  simp only [call stepBound bound]

end TableKernels.Wasm
