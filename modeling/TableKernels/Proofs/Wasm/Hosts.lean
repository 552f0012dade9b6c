import TableKernels.Proofs.Wasm.Runs

/-!
# What code does not see of its host

Code reaches the state of its host only by calling the functions that the host supplies. A change of
that state which these functions carry along, with the same results, is carried along by every run:
it ends in the same way with the same words, in a store that differs by the change only.
-/

namespace TableKernels.Wasm

variable {Host : Type} (change : Host → Host)

/-! ## Changed stores -/

/-- The store with another state of the host. -/
def Store.mapHost (store : Store Host) : Store Host := { store with host := change store.host }

/-- The end of a plain instruction on a changed store. -/
def Effect.mapHost : Effect Host → Effect Host
  | .next stack locals store => .next stack locals (store.mapHost change)
  | .trap reason store => .trap reason (store.mapHost change)
  | .stuck => .stuck

/-- The end of code on a changed store. -/
def Outcome.mapHost : Outcome Host → Outcome Host
  | .next stack locals store => .next stack locals (store.mapHost change)
  | .jump depth stack locals store => .jump depth stack locals (store.mapHost change)
  | .ret stack store => .ret stack (store.mapHost change)
  | .tail function arguments store => .tail function arguments (store.mapHost change)
  | .trap reason store => .trap reason (store.mapHost change)
  | .exhausted => .exhausted
  | .stuck => .stuck

/-- The end of a call on a changed store. -/
def CallResult.mapHost : CallResult Host → CallResult Host
  | .done results store => .done results (store.mapHost change)
  | .trap reason store => .trap reason (store.mapHost change)
  | .unfinished => .unfinished

/-- The imported functions carry a change of the host along. -/
def Program.Carries (program : Program Host) : Prop :=
  ∀ function ∈ program.imports, ∀ arguments host,
    function.run arguments (change host) =
      ((function.run arguments host).1, change (function.run arguments host).2)

variable {change}

theorem Store.memoryAt_mapHost (store : Store Host) (index : UInt32) :
    (store.mapHost change).memoryAt index = store.memoryAt index :=
  rfl

theorem Store.globals_mapHost (store : Store Host) :
    (store.mapHost change).globals = store.globals :=
  rfl

theorem Store.tableAt_mapHost (store : Store Host) (index : UInt32) :
    (store.mapHost change).tableAt index = store.tableAt index :=
  rfl

theorem Store.changeMemory_mapHost (store : Store Host) (index : UInt32)
    (edit : Memory → Memory) : (store.mapHost change).changeMemory index edit =
      (store.changeMemory index edit).mapHost change := by
  simp only [changeMemory, mapHost]
  split <;> rfl

theorem Store.changeBytes_mapHost (store : Store Host) (index : UInt32)
    (edit : ByteArray → ByteArray) : (store.mapHost change).changeBytes index edit =
      (store.changeBytes index edit).mapHost change :=
  store.changeMemory_mapHost index _

/-! ## Plain instructions -/

section Plain

variable (stack rest : List Word) (locals : Array Word) (store : Store Host)

theorem Operator.step_mapHost (operator : Operator) :
    operator.step stack locals (store.mapHost change) =
      (operator.step stack locals store).mapHost change := by
  unfold Operator.step
  dsimp only
  split
  all_goals
    split
    · split <;> rfl
    · rfl

theorem MemoryPlace.load_mapHost (place : MemoryPlace) (read : Memory → ℕ → Option Word)
    (base : ℕ) : place.load read base rest locals (store.mapHost change) =
      (place.load read base rest locals store).mapHost change := by
  simp only [load, Store.memoryAt_mapHost]
  split <;> rfl

theorem MemoryPlace.save_mapHost (place : MemoryPlace) (count : ℕ)
    (write : ByteArray → ℕ → ByteArray) (base : ℕ) :
    place.save count write base rest locals (store.mapHost change) =
      (place.save count write base rest locals store).mapHost change := by
  simp only [save, Store.memoryAt_mapHost, Store.changeBytes_mapHost]
  split <;> rfl

theorem Store.fill_mapHost (memory : UInt32) (base : ℕ) (value : UInt8) (count : ℕ) :
    (store.mapHost change).fill memory base value count rest locals =
      (store.fill memory base value count rest locals).mapHost change := by
  simp only [fill, memoryAt_mapHost, changeBytes_mapHost]
  split <;> rfl

theorem Store.grow_mapHost (memory : UInt32) (more : ℕ) (failed : Word) :
    (store.mapHost change).grow memory more failed rest locals =
      (store.grow memory more failed rest locals).mapHost change := by
  simp only [grow, memoryAt_mapHost, changeMemory_mapHost]
  split <;> rfl

theorem Store.write_mapHost (memory : UInt32) (address : ℕ) (content? : Option Bytes) :
    (store.mapHost change).write memory address content? rest locals =
      (store.write memory address content? rest locals).mapHost change := by
  cases content? with
  | none => rfl
  | some content =>
    simp only [write, memoryAt_mapHost, changeBytes_mapHost]
    split <;> rfl

theorem Store.put_mapHost (table : UInt32) (index : ℕ) (words? : Option (List Word)) :
    (store.mapHost change).put table index words? rest locals =
      (store.put table index words? rest locals).mapHost change := by
  cases words? with
  | none => rfl
  | some words =>
    rw [put, put, apply_ite (Effect.mapHost change)]
    rfl

theorem Store.growTable_mapHost (table : UInt32) (word : Word) (more : ℕ) (failed : Word) :
    (store.mapHost change).growTable table word more failed rest locals =
      (store.growTable table word more failed rest locals).mapHost change := by
  rw [growTable, growTable, apply_ite (Effect.mapHost change)]
  rfl

variable {stack rest locals store}

theorem withNumber_mapHost {run changed : ℕ → List Word → Effect Host}
    (same : ∀ number rest, changed number rest = (run number rest).mapHost change) :
    withNumber stack changed = (withNumber stack run).mapHost change := by
  rw [withNumber, withNumber]
  split
  · exact same _ _
  · rfl

theorem withNumbers_mapHost {run changed : ℕ → ℕ → ℕ → List Word → Effect Host}
    (same : ∀ first second third rest,
      changed first second third rest = (run first second third rest).mapHost change) :
    withNumbers stack changed = (withNumbers stack run).mapHost change :=
  withNumber_mapHost fun _ _ => withNumber_mapHost fun _ _ => withNumber_mapHost fun _ _ =>
    same _ _ _ _

/-- A plain instruction does not touch the host. -/
theorem Op.step_mapHost (op : Op) (stack : List Word) (locals : Array Word) (store : Store Host) :
    op.step stack locals (store.mapHost change) =
      (op.step stack locals store).mapHost change := by
  cases op with
  | drop | select | localGet | localSet | localTee | globalSet | refNull | refIsNull =>
    simp only [Op.step]
    split <;> rfl
  | globalGet index =>
    simp only [Op.step, Store.globals_mapHost]
    split <;> rfl
  | tableGet =>
    refine withNumber_mapHost fun _ _ => ?_
    simp only [Store.tableAt_mapHost]
    split <;> rfl
  | tableSet =>
    simp only [Op.step]
    split
    · exact withNumber_mapHost fun _ _ => Store.put_mapHost _ _ _ _ _ _
    · rfl
  | load => exact withNumber_mapHost fun _ _ => MemoryPlace.load_mapHost _ _ _ _ _ _
  | save =>
    simp only [Op.step]
    split
    · split
      · exact withNumber_mapHost fun _ _ => MemoryPlace.save_mapHost _ _ _ _ _ _ _
      · rfl
    · rfl
  | memoryGrow =>
    simp only [Op.step]
    split
    · exact Store.grow_mapHost _ _ _ _ _ _
    · exact Store.grow_mapHost _ _ _ _ _ _
    · rfl
  | memoryFill =>
    simp only [Op.step]
    split
    · exact Store.fill_mapHost _ _ _ _ _ _ _
    · exact Store.fill_mapHost _ _ _ _ _ _ _
    · rfl
  | memoryInit | memoryCopy =>
    exact withNumbers_mapHost fun _ _ _ _ => Store.write_mapHost _ _ _ _ _ _
  | tableInit | tableCopy =>
    exact withNumbers_mapHost fun _ _ _ _ => Store.put_mapHost _ _ _ _ _ _
  | tableGrow =>
    simp only [Op.step]
    split
    · exact Store.growTable_mapHost _ _ _ _ _ _ _
    · exact Store.growTable_mapHost _ _ _ _ _ _ _
    · rfl
  | tableFill =>
    refine withNumber_mapHost fun _ _ => ?_
    split
    · exact withNumber_mapHost fun _ _ => Store.put_mapHost _ _ _ _ _ _
    · rfl
  | nop | memorySize | dataDrop | elemDrop | tableSize | i32Const | i64Const | f32Const
  | f64Const | refFunc => rfl
  | numeric operator => exact operator.step_mapHost _ _ _

end Plain

/-! ## Runs -/

theorem Outcome.andThen_mapHost (outcome : Outcome Host)
    {through : List Word → Array Word → Store Host → Outcome Host}
    (falls : ∀ stack locals store,
      through stack locals (store.mapHost change) = (through stack locals store).mapHost change) :
    (outcome.mapHost change).andThen through = (outcome.andThen through).mapHost change := by
  cases outcome with
  | next stack locals store => exact falls stack locals store
  | jump | ret | tail | trap | exhausted | stuck => rfl

theorem Outcome.leaveBlock_mapHost (outcome : Outcome Host) (resultCount : ℕ) (rest : List Word) :
    (outcome.mapHost change).leaveBlock resultCount rest =
      (outcome.leaveBlock resultCount rest).mapHost change := by
  cases outcome with
  | jump depth => cases depth <;> rfl
  | next | ret | tail | trap | exhausted | stuck => rfl

theorem runBlock_mapHost {type? : Option FuncType} {stack : List Word}
    {run changed : List Word → Outcome Host}
    (same : ∀ inner, changed inner = (run inner).mapHost change)
    {through : List Word → Array Word → Store Host → Outcome Host}
    (falls : ∀ stack locals store,
      through stack locals (store.mapHost change) = (through stack locals store).mapHost change) :
    runBlock type? stack changed through = (runBlock type? stack run through).mapHost change := by
  cases type? with
  | none => rfl
  | some type =>
    simp only [runBlock, same, Outcome.leaveBlock_mapHost]
    exact Outcome.andThen_mapHost _ falls

theorem Outcome.leaveCall_mapHost (outcome : Outcome Host) (resultCount : ℕ) (rest : List Word)
    (locals : Array Word) : (outcome.mapHost change).leaveCall resultCount rest locals =
      (outcome.leaveCall resultCount rest locals).mapHost change := by
  cases outcome with
  | next | ret =>
    simp only [mapHost, leaveCall]
    split <;> rfl
  | jump depth =>
    cases depth with
    | zero =>
      simp only [mapHost, leaveCall]
      split <;> rfl
    | succ depth => rfl
  | tail | trap | exhausted | stuck => rfl

variable {program : Program Host}

theorem HostFunction.call_mapHost (carries : program.Carries change)
    {function : HostFunction Host} (imported : function ∈ program.imports)
    (rest arguments : List Word) (locals : Array Word) (store : Store Host) :
    function.call rest arguments locals (store.mapHost change) =
      (function.call rest arguments locals store).mapHost change := by
  simp only [call, Store.mapHost, carries function imported]
  cases function.run arguments store.host with
  | mk result host => cases result <;> rfl

/-- A run carries a change of the host along if the imported functions do. -/
theorem exec_mapHost (carries : program.Carries change) (fuel : ℕ) (room : Headroom)
    (code : List Instr) (stack : List Word) (locals : Array Word) (store : Store Host) :
    exec program fuel room code stack locals (store.mapHost change) =
      (exec program fuel room code stack locals store).mapHost change := by
  induction fuel generalizing room code stack locals store with
  | zero => rfl
  | succ fuel hypothesis =>
    cases code with
    | nil => rfl
    | cons instr code =>
      cases instr with
      | op op =>
        rw [exec, exec, op.step_mapHost]
        cases op.step stack locals store with
        | next stack' locals' middle => exact hypothesis _ _ _ _ _
        | trap | stuck => rfl
      | unreachable | br | ret => rfl
      | brIf target =>
        unfold exec
        split
        · split
          · exact hypothesis _ _ _ _ _
          · rfl
        · rfl
      | brTable targets default =>
        unfold exec
        split <;> rfl
      | blockOf type body =>
        rw [exec, exec]
        exact runBlock_mapHost (fun _ => hypothesis _ _ _ _ _) fun _ _ _ => hypothesis _ _ _ _ _
      | loopOf type body =>
        rw [exec, exec]
        split
        · next params results _ =>
          rw [hypothesis]
          cases exec program fuel room body (stack.take params.length) locals store with
          | jump depth inner locals store =>
            cases depth with
            | zero => exact hypothesis _ _ _ _ _
            | succ outer => rfl
          | next inner locals store => exact hypothesis _ _ _ _ _
          | ret | tail | trap | exhausted | stuck => rfl
        · rfl
      | branch type body other =>
        unfold exec
        split
        · exact runBlock_mapHost (fun _ => hypothesis _ _ _ _ _) fun _ _ _ => hypothesis _ _ _ _ _
        · rfl
      | call index =>
        rw [exec, exec]
        split
        · next function found =>
          split
          · split
            · rw [HostFunction.call_mapHost carries (Array.mem_of_getElem? found)]
              exact Outcome.andThen_mapHost _ fun _ _ _ => hypothesis _ _ _ _ _
            · rfl
          · rfl
        · split
          · next routine _ =>
            split
            · next arguments rest _ =>
              split
              · next inside _ =>
                have goesOn (outcome : Outcome Host) :
                    ((outcome.mapHost change).leaveCall routine.type.results.length rest
                      locals).andThen (exec program fuel room code) =
                    ((outcome.leaveCall routine.type.results.length rest locals).andThen
                      (exec program fuel room code)).mapHost change := by
                  rw [Outcome.leaveCall_mapHost]
                  exact Outcome.andThen_mapHost _ fun _ _ _ => hypothesis _ _ _ _ _
                rw [hypothesis]
                cases exec program fuel inside routine.code []
                  (arguments ++ routine.locals).toArray store with
                | tail function arguments store => exact hypothesis _ _ _ _ _
                | next stack locals store => exact goesOn (.next stack locals store)
                | jump depth stack locals store => exact goesOn (.jump depth stack locals store)
                | ret stack store => exact goesOn (.ret stack store)
                | trap | exhausted | stuck => rfl
              · rfl
            · rfl
          · rfl
      | callIndirect type table | returnCallIndirect type table =>
        rw [exec, exec]
        simp only [Store.tableAt_mapHost]
        split
        · split
          · exact hypothesis _ _ _ _ _
          · rfl
        · rfl
      | returnCall function =>
        rw [exec, exec]
        split
        · split
          · split <;> rfl
          · rfl
        · rfl

/-- A call from outside carries a change of the host along if the imported functions do. -/
theorem Program.invoke_mapHost (carries : program.Carries change) (index : UInt32)
    (arguments : List Word) (store : Store Host) :
    program.invoke index arguments (store.mapHost change) =
      (program.invoke index arguments store).mapHost change := by
  rw [invoke, invoke]
  simp only [exec_mapHost carries]
  cases exec program stepBound (Headroom.full (program.resultCount index)) [.call index]
    arguments.reverse #[] store <;> rfl

end TableKernels.Wasm
