import TableKernels.Proofs.Memory.Bytes

/-!
# What runs keep

Code changes a store by its plain instructions and by the functions of its host, and in no other
way. A plain instruction sets a global, replaces bytes of a memory in place or grows a memory. So a
relation between stores that each of these keeps, and that carries on from step to step, holds
between the store before a run and the store after it, however the run ends.
-/

namespace TableKernels.Wasm

variable {Host : Type} {P Q : Store Host → Prop}

/-! ## Stores that are left -/

/-- What holds of the store that an effect leaves. -/
def Effect.Leaves (P : Store Host → Prop) : Effect Host → Prop
  | .next _ _ store | .trap _ store => P store
  | .stuck => True

/-- What holds of the store that an outcome leaves. -/
def Outcome.Leaves (P : Store Host → Prop) : Outcome Host → Prop
  | .next _ _ store | .jump _ _ _ store | .ret _ store | .tail _ _ store | .trap _ store => P store
  | .exhausted | .stuck => True

/-- What holds of the store that a call from outside leaves. -/
def CallResult.Leaves (P : Store Host → Prop) : CallResult Host → Prop
  | .done _ store | .trap _ store => P store
  | .unfinished => True

theorem Effect.Leaves.imp {effect : Effect Host} (leaves : effect.Leaves P)
    (imp : ∀ store, P store → Q store) : effect.Leaves Q := by
  cases effect with
  | next | trap => exact imp _ leaves
  | stuck => trivial

namespace Outcome.Leaves

variable {outcome : Outcome Host}

theorem imp (leaves : outcome.Leaves P) (imp : ∀ store, P store → Q store) :
    outcome.Leaves Q := by
  cases outcome with
  | next | jump | ret | tail | trap => exact imp _ leaves
  | exhausted | stuck => trivial

theorem leaveCall (leaves : outcome.Leaves P) (resultCount : ℕ) (rest : List Word)
    (locals : Array Word) : (outcome.leaveCall resultCount rest locals).Leaves P := by
  cases outcome with
  | next | ret =>
    rw [Outcome.leaveCall]
    split
    · exact leaves
    · trivial
  | jump depth =>
    cases depth with
    | zero =>
      rw [Outcome.leaveCall]
      split
      · exact leaves
      · trivial
    | succ depth => trivial
  | trap => exact leaves
  | tail | exhausted | stuck => trivial

theorem leaveBlock (leaves : outcome.Leaves P) (resultCount : ℕ) (rest : List Word) :
    (outcome.leaveBlock resultCount rest).Leaves P := by
  cases outcome with
  | jump depth => cases depth <;> exact leaves
  | next | ret | tail | trap | exhausted | stuck => exact leaves

/-- What holds of the store that is left holds of what is left where code goes on. -/
theorem andThen (leaves : outcome.Leaves P)
    {through : List Word → Array Word → Store Host → Outcome Host}
    (falls : ∀ stack locals store, P store → (through stack locals store).Leaves P) :
    (outcome.andThen through).Leaves P := by
  cases outcome with
  | next stack locals store => exact falls stack locals store leaves
  | jump | ret | tail | trap | exhausted | stuck => exact leaves

/-- What holds of the store that a block leaves holds of what is left behind the block. -/
theorem runBlock {type? : Option FuncType} {stack : List Word} {run : List Word → Outcome Host}
    (leaves : ∀ inner, (run inner).Leaves P)
    {through : List Word → Array Word → Store Host → Outcome Host}
    (falls : ∀ stack locals store, P store → (through stack locals store).Leaves P) :
    (runBlock type? stack run through).Leaves P := by
  cases type? with
  | none => trivial
  | some type => exact ((leaves _).leaveBlock _ _).andThen falls

end Outcome.Leaves

/-! ## Plain instructions -/

/-- What a plain instruction may do to a store. -/
inductive Store.Changes (op : Op) (store : Store Host) : Store Host → Prop
  | none : Changes op store store
  | global (index : UInt32) (word : Word) (sets : op = .globalSet index) :
    Changes op store { store with globals := store.globals.setIfInBounds index.toNat word }
  | bytes (memory : UInt32) (change : ByteArray → ByteArray)
    (same : ∀ bytes, (change bytes).size = bytes.size) :
    Changes op store (store.changeBytes memory change)
  | grow (memory : UInt32) (more : ℕ) (can : (store.memoryAt memory).canGrow more = true) :
    Changes op store (store.changeMemory memory (·.grow more))
  | tables (tables : Array Table) (segments : Segments) :
    Changes op store { store with tables, segments }

section Changes

variable {stack rest : List Word} {locals : Array Word} {store : Store Host} {op : Op}

theorem Operator.step_changes (operator : Operator) :
    (operator.step stack locals store).Leaves (store.Changes op) := by
  unfold Operator.step
  dsimp only
  split
  all_goals
    split
    -- What is left is how the evaluation of the operator ends.
    · split <;> first | exact .none | trivial
    · trivial

theorem MemoryPlace.load_changes (place : MemoryPlace) (read : Memory → ℕ → Option Word)
    (base : ℕ) : (place.load read base rest locals store).Leaves (store.Changes op) := by
  rw [MemoryPlace.load]
  split <;> exact .none

theorem MemoryPlace.save_changes (place : MemoryPlace) (count : ℕ)
    {write : ByteArray → ℕ → ByteArray}
    (same : ∀ bytes address, (write bytes address).size = bytes.size) (base : ℕ) :
    (place.save count write base rest locals store).Leaves (store.Changes op) := by
  rw [MemoryPlace.save]
  split
  · exact .bytes _ _ fun bytes => same bytes _
  · exact .none

theorem Store.fill_changes (memory : UInt32) (base : ℕ) (value : UInt8) (count : ℕ) :
    (store.fill memory base value count rest locals).Leaves (store.Changes op) := by
  rw [Store.fill]
  split
  · exact .bytes _ _ fun bytes => Memory.size_fillBytes count bytes base
  · exact .none

theorem Store.grow_changes (memory : UInt32) (more : ℕ) (failed : Word) :
    (store.grow memory more failed rest locals).Leaves (store.Changes op) := by
  rw [Store.grow]
  split
  · next can => exact .grow _ _ can
  · exact .none

theorem Store.write_changes (memory : UInt32) (address : ℕ) (content? : Option Bytes) :
    (store.write memory address content? rest locals).Leaves (store.Changes op) := by
  rw [Store.write.eq_def]
  split
  · split
    · exact .bytes _ _ fun _ => size_overwrite _ _ _
    · exact .none
  · exact .none

theorem Store.put_changes (table : UInt32) (index : ℕ) (words? : Option (List Word)) :
    (store.put table index words? rest locals).Leaves (store.Changes op) := by
  rw [Store.put.eq_def]
  split
  · split
    · exact .tables _ _
    · exact .none
  · exact .none

theorem Store.growTable_changes (table : UInt32) (word : Word) (more : ℕ) (failed : Word) :
    (store.growTable table word more failed rest locals).Leaves (store.Changes op) := by
  rw [Store.growTable]
  split
  · exact .tables _ _
  · exact .none

theorem withNumber_leaves {run : ℕ → List Word → Effect Host}
    (leaves : ∀ number rest, (run number rest).Leaves P) : (withNumber stack run).Leaves P := by
  rw [withNumber]
  split
  · exact leaves _ _
  · trivial

theorem withNumbers_leaves {run : ℕ → ℕ → ℕ → List Word → Effect Host}
    (leaves : ∀ first second third rest, (run first second third rest).Leaves P) :
    (withNumbers stack run).Leaves P :=
  withNumber_leaves fun _ _ => withNumber_leaves fun _ _ => withNumber_leaves fun _ _ =>
    leaves _ _ _ _

theorem Save.size_write (form : Save) (bits : UInt64) (bytes : ByteArray) (address : ℕ) :
    (form.write bits bytes address).size = bytes.size := by
  rw [Save.write]
  split
  · exact Memory.size_setByte _ _ _
  · exact size_overwrite _ _ _

/-- What a plain instruction does to a store, whether it goes on or traps. -/
theorem Op.step_changes (op : Op) (stack : List Word) (locals : Array Word)
    (store : Store Host) : (op.step stack locals store).Leaves (store.Changes op) := by
  cases op with
  | drop | select | localGet | globalGet | localSet | localTee | refNull | refIsNull =>
    simp only [Op.step]
    split
    · exact .none
    · trivial
  | globalSet index =>
    simp only [Op.step]
    split
    · exact .global index _ rfl
    · trivial
  | tableGet =>
    refine withNumber_leaves fun _ _ => ?_
    split <;> exact .none
  | tableSet =>
    simp only [Op.step]
    split
    · exact withNumber_leaves fun _ _ => Store.put_changes _ _ _
    · trivial
  | load => exact withNumber_leaves fun _ _ => MemoryPlace.load_changes _ _ _
  | save form =>
    simp only [Op.step]
    split
    · split
      · exact withNumber_leaves fun _ _ =>
          MemoryPlace.save_changes _ _ (fun _ _ => form.size_write _ _ _) _
      · trivial
    · trivial
  | memoryGrow =>
    simp only [Op.step]
    split
    · exact Store.grow_changes _ _ _
    · exact Store.grow_changes _ _ _
    · trivial
  | memoryFill =>
    simp only [Op.step]
    split
    · exact Store.fill_changes _ _ _ _
    · exact Store.fill_changes _ _ _ _
    · trivial
  | memoryInit | memoryCopy => exact withNumbers_leaves fun _ _ _ _ => Store.write_changes _ _ _
  | tableInit | tableCopy => exact withNumbers_leaves fun _ _ _ _ => Store.put_changes _ _ _
  | tableGrow =>
    simp only [Op.step]
    split
    · exact Store.growTable_changes _ _ _ _
    · exact Store.growTable_changes _ _ _ _
    · trivial
  | tableFill =>
    refine withNumber_leaves fun _ _ => ?_
    split
    · exact withNumber_leaves fun _ _ => Store.put_changes _ _ _
    · trivial
  | dataDrop | elemDrop => exact .tables _ _
  | nop | memorySize | tableSize | i32Const | i64Const | f32Const | f64Const | refFunc =>
    exact .none
  | numeric operator => exact operator.step_changes

end Changes

/-! ## Runs -/

/--
A relation between stores that the plain instructions of a program and the functions of its host
keep, and that carries on from step to step.
-/
structure Program.Maintains (program : Program Host) (allowed : Op → Prop)
    (R : Store Host → Store Host → Prop) : Prop where
  refl : ∀ store, R store store
  trans : ∀ {first second third}, R first second → R second third → R first third
  op : ∀ op, allowed op → ∀ {store after}, store.Changes op after → R store after
  call : ∀ function ∈ program.imports, ∀ arguments (store : Store Host),
    R store { store with host := (function.run arguments store.host).2 }
  routines : ∀ routine ∈ program.routines, ∀ op ∈ plainOps routine.code, allowed op

variable {program : Program Host} {allowed : Op → Prop} {R : Store Host → Store Host → Prop}

theorem HostFunction.call_maintains (maintains : program.Maintains allowed R)
    {function : HostFunction Host} (imported : function ∈ program.imports)
    (rest arguments : List Word) (locals : Array Word) (store : Store Host) :
    (function.call rest arguments locals store).Leaves (R store) := by
  have kept := maintains.call function imported arguments store
  rw [HostFunction.call]
  split <;> next same =>
    rw [same] at kept
    exact kept

/-- Whatever code does, the store after it stands in the relation to the store before it. -/
theorem exec_maintains (maintains : program.Maintains allowed R) (fuel : ℕ) (room : Headroom)
    {code : List Instr} (plain : ∀ op ∈ plainOps code, allowed op) (stack : List Word)
    (locals : Array Word) (store : Store Host) :
    (exec program fuel room code stack locals store).Leaves (R store) := by
  -- The relation is between the store at the start and the one at the end, so `goesOn` chains
  -- what is left of the code behind the store that the first instruction leaves.
  induction fuel generalizing room code stack locals store with
  | zero =>
    rw [exec]
    trivial
  | succ fuel hypothesis =>
    cases code with
    | nil =>
      rw [exec]
      exact maintains.refl _
    | cons instr code =>
      obtain ⟨first, others⟩ := List.forall_mem_append.mp plain
      have goesOn {code : List Instr} (plain : ∀ op ∈ plainOps code, allowed op)
          (stack : List Word) (locals : Array Word) (middle : Store Host)
          (reached : R store middle) :
          (exec program fuel room code stack locals middle).Leaves (R store) :=
        (hypothesis room plain stack locals middle).imp fun _ => maintains.trans reached
      -- A call through a table and a last call go on as a plain one in front of the same code.
      have called (instr : Instr) (none : instr.plainOps = []) :
          ∀ op ∈ plainOps (instr :: code), allowed op := by
        rw [plainOps, none]
        exact others
      cases instr with
      | op op =>
        have step := (op.step_changes stack locals store).imp fun _ =>
          maintains.op op (first op (List.mem_singleton_self op))
        rw [exec]
        cases ends : op.step stack locals store with
        | next stack' locals' middle =>
          rw [ends] at step
          exact goesOn others _ _ _ step
        | trap reason middle =>
          rw [ends] at step
          exact step
        | stuck => trivial
      | unreachable | br | ret =>
        rw [exec]
        exact maintains.refl _
      | brIf target =>
        unfold exec
        split
        · split
          · exact hypothesis _ others _ _ _
          · exact maintains.refl _
        · trivial
      | brTable targets default =>
        unfold exec
        split
        · exact maintains.refl _
        · trivial
      | blockOf type body =>
        rw [exec]
        exact .runBlock (fun _ => hypothesis _ first _ _ _) fun _ _ _ => goesOn others _ _ _
      | loopOf type body =>
        rw [exec]
        split
        · next params results _ =>
          have inner := hypothesis room first (stack.take params.length) locals store
          split
          -- A loop that is entered again is the same code, not what follows it.
          · next again =>
            rw [again] at inner
            exact goesOn plain _ _ _ inner
          · exact (inner.leaveBlock _ _).andThen fun _ _ _ => goesOn others _ _ _
        · trivial
      | branch type body other =>
        obtain ⟨first, second⟩ := List.forall_mem_append.mp first
        unfold exec
        split
        · refine .runBlock (fun _ => ?_) fun _ _ _ => goesOn others _ _ _
          split
          · exact hypothesis _ second _ _ _
          · exact hypothesis _ first _ _ _
        · trivial
      | call index =>
        rw [exec]
        split
        · next function found =>
          split
          · split
            · exact (HostFunction.call_maintains maintains (Array.mem_of_getElem? found)
                _ _ _ _).andThen fun _ _ _ => goesOn others _ _ _
            · exact maintains.refl _
          · trivial
        · split
          · next routine found =>
            have plain := maintains.routines routine (Array.mem_of_getElem? found)
            split
            · next arguments rest _ =>
              split
              · next inside _ =>
                have inner := hypothesis inside plain []
                  (arguments ++ routine.locals).toArray store
                split
                · next function' _ _ last =>
                  rw [last] at inner
                  exact goesOn (called (.call function') rfl) _ _ _ inner
                · exact (inner.leaveCall _ _ _).andThen fun _ _ _ => goesOn others _ _ _
              · exact maintains.refl _
            · trivial
          · trivial
      | callIndirect type table =>
        rw [exec]
        split
        · split
          · exact hypothesis _ (called _ rfl) _ _ _
          · exact maintains.refl _
        · trivial
      | returnCallIndirect type table =>
        rw [exec]
        split
        · split
          · exact hypothesis _ (called _ rfl) _ _ _
          · exact maintains.refl _
        · trivial
      | returnCall function =>
        rw [exec]
        split
        · split
          · split <;> exact maintains.refl _
          · trivial
        · trivial

/-- Whatever a call from outside does, the store after it stands in the relation to that before. -/
theorem Program.invoke_maintains (maintains : program.Maintains allowed R) (index : UInt32)
    (arguments : List Word) (store : Store Host) :
    (program.invoke index arguments store).Leaves (R store) := by
  have plain : ∀ op ∈ plainOps [.call index], allowed op := nofun
  have leaves := exec_maintains maintains stepBound (Headroom.full (program.resultCount index))
    plain arguments.reverse #[] store
  rw [Program.invoke]
  split
  all_goals
    next same =>
      rw [same] at leaves
      first
        | exact leaves
        | trivial

/-! ## What runs do to the host -/

theorem Store.host_changeMemory (store : Store Host) (index : UInt32)
    (change : Memory → Memory) : (store.changeMemory index change).host = store.host := by
  rw [Store.changeMemory]
  split <;> rfl

theorem Store.host_changeBytes (store : Store Host) (index : UInt32)
    (change : ByteArray → ByteArray) : (store.changeBytes index change).host = store.host :=
  store.host_changeMemory index _

theorem Store.Changes.host {op : Op} {store after : Store Host} (changes : store.Changes op after) :
    after.host = store.host := by
  cases changes with
  | none | global => rfl
  | bytes => exact store.host_changeBytes _ _
  | grow => exact store.host_changeMemory _ _
  | tables => rfl

/--
A relation between states of a host that every imported function keeps and that carries on from
call to call.
-/
structure Program.Keeps (program : Program Host) (R : Host → Host → Prop) : Prop where
  refl : ∀ host, R host host
  trans : ∀ {first second third}, R first second → R second third → R first third
  call : ∀ function ∈ program.imports, ∀ arguments host, R host (function.run arguments host).2

variable {K : Host → Host → Prop}

/-- What the functions of a host keep is kept by runs, since plain instructions leave the host. -/
theorem Program.Keeps.maintains (keeps : program.Keeps K) :
    program.Maintains (fun _ => True) fun before after => K before.host after.host where
  refl _ := keeps.refl _
  trans := keeps.trans
  op _ _ _ _ changes := changes.host ▸ keeps.refl _
  call function imported arguments store := keeps.call function imported arguments store.host
  routines _ _ _ _ := trivial

/-- Whatever a call from outside does, the host after it stands in the relation to that before. -/
theorem Program.invoke_leaves (keeps : program.Keeps K) (index : UInt32) (arguments : List Word)
    (store : Store Host) :
    (program.invoke index arguments store).Leaves fun after => K store.host after.host :=
  program.invoke_maintains keeps.maintains index arguments store

end TableKernels.Wasm
