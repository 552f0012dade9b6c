import TableKernels.Proofs.Hosted.History
import TableKernels.Proofs.Wasm.Growth

/-!
# What a host does to any module

A module that is hosted need not be a compiled one. Whatever its code is, a host admits it only with
its exports in place, and from then on does four things: it changes its own state, it replaces bytes
of memory, it calls an entry point with arguments of the right types, and it remembers that a
snapshot was taken. What holds at first and survives these four holds after every sequence of steps.
-/

namespace TableKernels

open Wasm

/-! ## Moves -/

theorem HostState.position_callCallback (host : HostState) (value : Int64) :
    (host.callCallback value).2.position = host.position := by
  unfold callCallback
  split
  · rfl
  · dsimp only
    split <;> rfl

namespace HostedKernel

variable {kernel after : HostedKernel} {bytes : Bytes} {config : Config}

/-- The kernel with another store. -/
def withStore (kernel : HostedKernel) (store : Store HostState) : HostedKernel :=
  { kernel with live := { kernel.live with store } }

/-- What a host may do with a kernel in one go. -/
inductive Move (kernel : HostedKernel) : HostedKernel → Prop
  | host (host : HostState) : Move kernel (kernel.withHost host)
  /-- Bytes of the exported memory are replaced. -/
  | bytes (change : ByteArray → ByteArray) :
    Move kernel (kernel.withStore (kernel.live.store.changeBytes kernel.surface.memory change))
  /-- An entry point is called with arguments of its types, and it ends or traps. -/
  | call (entry : EntryPoint) (words : List Word) (store : Store HostState)
    (typed : words.map Word.type = entry.funcType.params)
    (leaves : (∃ results, kernel.live.program.invoke (kernel.surface.function entry) words
        kernel.live.store = .done results store) ∨
      ∃ trap, kernel.live.program.invoke (kernel.surface.function entry) words
        kernel.live.store = .trap trap store) : Move kernel (kernel.withStore store)
  | taken : Move kernel { kernel with snapshotTaken := true }

/-- What a host may do with a kernel in a row. -/
abbrev Moves : HostedKernel → HostedKernel → Prop := Relation.ReflTransGen Move

/-! ## Steady moves -/

/-- The code of a kernel reaches its host through the two functions that a host supplies. -/
def IsLinked (kernel : HostedKernel) : Prop :=
  ∀ function ∈ kernel.live.program.imports,
    function = HostState.abortFunction ∨ function = HostState.callbackFunction

/-- A move that shrinks no memory and leaves the cursor of the memory stream where it is. -/
structure SteadyMove (kernel after : HostedKernel) : Prop where
  move : Move kernel after
  grows : kernel.live.store.Grows after.live.store
  position : kernel.IsLinked → after.position = kernel.position
  linked : kernel.IsLinked → after.IsLinked

/-- Moves in a row that shrink no memory and leave the cursor where it is. -/
abbrev SteadyMoves : HostedKernel → HostedKernel → Prop := Relation.ReflTransGen SteadyMove

theorem SteadyMoves.moves (steady : SteadyMoves kernel after) : Moves kernel after :=
  Relation.ReflTransGen.mono (fun _ _ => SteadyMove.move) _ _ steady

theorem SteadyMoves.grows (steady : SteadyMoves kernel after) :
    kernel.live.store.Grows after.live.store := by
  induction steady with
  | refl => exact .refl _
  | tail _ last reached => exact reached.trans last.grows

theorem SteadyMoves.position (steady : SteadyMoves kernel after) (linked : kernel.IsLinked) :
    after.position = kernel.position ∧ after.IsLinked := by
  induction steady with
  | refl => exact ⟨rfl, linked⟩
  | tail _ last reached =>
    exact ⟨(last.position reached.2).trans reached.1, last.linked reached.2⟩

theorem steady_host (host : HostState) (same : host.position = kernel.position) :
    SteadyMove kernel (kernel.withHost host) :=
  ⟨.host host, fun _ => .refl _, fun _ => same, id⟩

/-- Nothing but the cursor's own operations moves the cursor, whatever code runs. -/
theorem keeps_position {program : Program HostState}
    (linked : ∀ function ∈ program.imports,
      function = HostState.abortFunction ∨ function = HostState.callbackFunction) :
    program.Keeps fun before after => after.position = before.position where
  refl _ := rfl
  trans first second := second.trans first
  call function imported arguments host := by
    rcases linked function imported with rfl | rfl
    · unfold HostState.abortFunction
      dsimp only
      split <;> rfl
    · unfold HostState.callbackFunction
      dsimp only
      split
      · exact HostState.position_callCallback host _
      · rfl

theorem steady_call (entry : EntryPoint) (words : List Word) (store : Store HostState)
    (typed : words.map Word.type = entry.funcType.params)
    (leaves : (∃ results, kernel.live.program.invoke (kernel.surface.function entry) words
        kernel.live.store = .done results store) ∨
      ∃ trap, kernel.live.program.invoke (kernel.surface.function entry) words
        kernel.live.store = .trap trap store) : SteadyMove kernel (kernel.withStore store) := by
  refine ⟨.call entry words store typed leaves, ?_, fun linked => ?_, id⟩
  · have grows := kernel.live.program.invoke_maintains kernel.live.program.maintains_grows
      (kernel.surface.function entry) words kernel.live.store
    rcases leaves with ⟨_, ends⟩ | ⟨_, ends⟩
    all_goals
      rw [ends] at grows
      exact grows
  · have kept := Program.invoke_leaves (keeps_position linked) (kernel.surface.function entry)
      words kernel.live.store
    rcases leaves with ⟨_, ends⟩ | ⟨_, ends⟩
    all_goals
      rw [ends] at kept
      exact kept

theorem steady_taken (kernel : HostedKernel) :
    SteadyMove kernel { kernel with snapshotTaken := true } :=
  ⟨.taken, .refl _, fun _ => rfl, id⟩

theorem log_steady (kernel : HostedKernel) (level : Level) (text : String) :
    SteadyMoves kernel (kernel.log level text) :=
  .single (steady_host _ rfl)

theorem enter_steady (kernel : HostedKernel) (entry : EntryPoint) (argument : Int64)
    (words : List Word) (typed : words.map Word.type = entry.funcType.params) :
    SteadyMoves kernel (kernel.enter entry argument words).2 := by
  have begun : SteadyMoves kernel (kernel.withHost kernel.host.beginCall) :=
    .single (steady_host _ rfl)
  unfold enter
  dsimp only
  split
  · next results store ends =>
    exact begun.tail (steady_call entry words store typed (.inl ⟨_, ends⟩))
  · next trap store ends =>
    exact (begun.tail (steady_call entry words store typed (.inr ⟨_, ends⟩))).tail
      (steady_host _ rfl)
  · exact begun.tail (steady_host _ rfl)

theorem compute_steady {α : Type} (kernel : HostedKernel) (entry : EntryPoint)
    (typed : entry.funcType.params = [.i64]) (read : List Word → α) (argument : Int64) :
    SteadyMoves kernel (kernel.compute entry read argument).2 := by
  unfold compute
  dsimp only
  split
  · exact kernel.log_steady _ _
  · exact (kernel.log_steady _ _).trans (enter_steady _ entry argument _ typed.symm)

theorem updateMemory_steady (kernel : HostedKernel) :
    SteadyMoves kernel kernel.updateMemory.2 := by
  have entered := (kernel.log_steady _ _).trans
    (enter_steady (kernel.log .debug "update_memory()") .updateMemory 0 [] rfl)
  unfold updateMemory
  split
  case h_1 same =>
    rw [same] at entered
    exact entered.tail (steady_taken _)
  case h_2 same =>
    rw [same] at entered
    exact entered

theorem settlePanic_steady (kernel : HostedKernel) : SteadyMoves kernel kernel.settlePanic.2 := by
  unfold settlePanic
  split
  · exact .refl
  · exact .tail (.single (steady_host _ rfl)) (steady_host _ rfl)

theorem invokeCallback_steady (kernel : HostedKernel) :
    SteadyMoves kernel kernel.invokeCallback.2 := by
  have logged := kernel.log_steady .debug
    ("invoke_callback() with counter " ++ toString kernel.counter.toInt)
  have entered := logged.trans (enter_steady _ .invokeCallback kernel.counter [] rfl)
  unfold invokeCallback
  dsimp only
  split
  · split
    case h_1 same =>
      rw [same] at entered
      exact entered.trans (settlePanic_steady _)
    case h_2 same =>
      rw [same] at entered
      exact entered
  · exact logged.tail (steady_host _ rfl)

theorem run_steady (kernel : HostedKernel) (entry : EntryPoint) (arguments : List Int64) :
    SteadyMoves kernel (Kernel.run entry arguments kernel).2 := by
  cases entry with
  | fibonacci =>
    cases arguments with
    | nil => exact .refl
    | cons n rest => exact kernel.compute_steady .fibonacci rfl resultInt64 n
  | sieve =>
    cases arguments with
    | nil => exact .refl
    | cons limit rest => exact kernel.compute_steady .sieve rfl resultInt32 limit
  | updateMemory => cases arguments <;> exact kernel.updateMemory_steady
  | invokeCallback => cases arguments <;> exact kernel.invokeCallback_steady

theorem write_steady (kernel : HostedKernel) (offset : UInt64) (data : Bytes) :
    SteadyMoves kernel (kernel.write offset data).2 := by
  unfold HostedKernel.write
  split
  · exact .refl
  · have same := kernel.live.store.host_changeBytes kernel.surface.memory fun bytes =>
      overwrite bytes offset.toNat data
    exact .single ⟨.bytes _, Store.grows_changeBytes fun _ => size_overwrite _ _ _,
      fun _ => congrArg HostState.position same, id⟩

/-- Whatever operation is performed, the cursor stays where it is. -/
theorem operation_steady (kernel : HostedKernel) (operation : Operation) :
    SteadyMoves kernel (operation.run kernel).2 := by
  cases entered : operation.entered? with
  | some pair =>
    rw [Operation.run_of_entered entered]
    exact kernel.run_steady pair.1 pair.2
  | none =>
    cases operation with
    | fibonacci | sieve | updateMemory | invokeCallback => cases entered
    | call name arguments =>
      obtain ⟨failure, unchanged⟩ := Operation.run_of_not_entered rfl entered
      rw [unchanged kernel]
    | global name => exact .refl
    | bind callback => exact .single (steady_host _ rfl)
    | unbind => exact .single (steady_host _ rfl)
    | write offset data => exact kernel.write_steady offset data

/-! ## Steps -/

/-- Every step is a row of moves that shrinks no memory. -/
theorem step_moves (kernel : HostedKernel) (step : HostStep) :
    Moves kernel (step.after kernel) ∧ kernel.live.store.Grows (step.after kernel).live.store := by
  have host (host : HostState) : Moves kernel (kernel.withHost host) ∧
      kernel.live.store.Grows (kernel.withHost host).live.store :=
    ⟨.single (.host host), fun _ => .refl _⟩
  cases step with
  | perform operation =>
    have steady := kernel.operation_steady operation
    exact ⟨steady.moves, steady.grows⟩
  | seek position =>
    unfold HostStep.after seek
    dsimp only
    split
    · exact ⟨.refl, .refl _⟩
    · exact host _
  | getData length =>
    unfold HostStep.after getData
    dsimp only
    split
    · exact ⟨.refl, .refl _⟩
    · exact host _
  | putData data =>
    have written := kernel.write_steady kernel.position data
    unfold HostStep.after putData
    dsimp only
    split
    case h_1 same =>
      rw [same] at written
      exact ⟨written.moves, written.grows⟩
    case h_2 same =>
      rw [same] at written
      exact ⟨written.moves.tail (.host _), written.grows⟩

/-- The code, the exports, where the host found them and what it knows of the module stay. -/
structure SameCode (before after : HostedKernel) : Prop where
  config : after.config = before.config
  report : after.report = before.report
  limits : after.limits = before.limits
  program : after.live.program = before.live.program
  functionTypes : after.live.functionTypes = before.live.functionTypes
  exports : after.live.exports = before.live.exports
  surface : after.surface = before.surface

theorem Move.sameCode (move : Move kernel after) : SameCode kernel after := by
  cases move <;> exact ⟨rfl, rfl, rfl, rfl, rfl, rfl, rfl⟩

theorem Moves.sameCode (moves : Moves kernel after) : SameCode kernel after := by
  induction moves with
  | refl => exact ⟨rfl, rfl, rfl, rfl, rfl, rfl, rfl⟩
  | tail _ move same =>
    have next := move.sameCode
    exact ⟨next.config.trans same.config, next.report.trans same.report,
      next.limits.trans same.limits, next.program.trans same.program,
      next.functionTypes.trans same.functionTypes, next.exports.trans same.exports,
      next.surface.trans same.surface⟩

/-- What a module declares stays true of its instance, whatever the host does. -/
theorem Move.describes {program : Module} (move : Move kernel after)
    (isOf : kernel.surface.IsOf kernel.live) (describes : program.Describes kernel.live) :
    program.Describes after.live := by
  cases move with
  | host host =>
    exact ⟨describes.valid, describes.exports, describes.functions, describes.code,
      describes.store.withHost host⟩
  | bytes change =>
    exact ⟨describes.valid, describes.exports, describes.functions, describes.code,
      describes.store.changeBytes _ change⟩
  | taken => exact describes
  | call entry words store typed leaves =>
    have left := describes.code.invoke
      (Instance.type_of_function? (isOf.function entry)) words typed describes.store
    have stored : store.IsTyped (program.outerScope kernel.live.functionTypes) := by
      rcases leaves with ⟨_, ends⟩ | ⟨_, ends⟩
      all_goals
        rw [ends] at left
        exact left
    exact ⟨describes.valid, describes.exports, describes.functions, describes.code, stored⟩

theorem SameCode.isOf (same : SameCode kernel after) (isOf : kernel.surface.IsOf kernel.live) :
    after.surface.IsOf after.live := by
  obtain ⟨_, _, _, _, types, exports, surface⟩ := same
  have sameExport (name : String) :
      Instance.export? after.live name = Instance.export? kernel.live name := by
    rw [Instance.export?, exports, Instance.export?]
  refine ⟨?_, fun entry => ?_, ?_, ?_, ?_⟩
  · rw [surface, ← isOf.memory, Instance.memory?, Instance.memory?, sameExport]
  · rw [surface, ← isOf.function entry, LinkedModule.entry?, LinkedModule.entry?,
      Instance.function?, Instance.function?, sameExport, types]
  · rw [surface, ← isOf.constant, Instance.global?, Instance.global?, sameExport]
  · rw [surface, ← isOf.counter, Instance.global?, Instance.global?, sameExport]
  · rw [surface, ← isOf.snapshot, Instance.global?, Instance.global?, sameExport]

/-- After any moves the surface is in place and the module describes the instance. -/
theorem Moves.describes {program : Module} (moves : Moves kernel after)
    (isOf : kernel.surface.IsOf kernel.live) (describes : program.Describes kernel.live) :
    after.surface.IsOf after.live ∧ program.Describes after.live := by
  induction moves with
  | refl => exact ⟨isOf, describes⟩
  | tail _ move reached => exact ⟨move.sameCode.isOf reached.1, move.describes reached.1 reached.2⟩

end HostedKernel

/-! ## The functions of the host -/

theorem HostState.linker_cases {moduleName name : String} {function : HostFunction HostState}
    (supplied : HostState.linker moduleName name = some function) :
    moduleName = importModule ∧ ((name = abortImport ∧ function = abortFunction) ∨
      (name = callbackImport ∧ function = callbackFunction)) := by
  rw [linker] at supplied
  split at supplied
  · next sameModule =>
    split at supplied
    · next sameName => exact ⟨sameModule, .inl ⟨sameName, (Option.some.inj supplied).symm⟩⟩
    · split at supplied
      · next sameName => exact ⟨sameModule, .inr ⟨sameName, (Option.some.inj supplied).symm⟩⟩
      · cases supplied
  · cases supplied

theorem HostState.abortFunction_isTyped : abortFunction.IsTyped := by
  intro arguments host _ results run
  unfold abortFunction at run
  dsimp only at run
  split at run <;> exact (Except.ok.inj run).symm ▸ rfl

theorem HostState.callbackFunction_isTyped : callbackFunction.IsTyped := by
  intro arguments host given results run
  obtain ⟨word, rfl, integer⟩ := List.map_eq_singleton_iff.mp given
  cases word <;> cases integer
  exact (Except.ok.inj run).symm ▸ rfl

theorem HostState.linker_isTyped (moduleName name : String) (function : HostFunction HostState)
    (supplied : HostState.linker moduleName name = some function) : function.IsTyped := by
  obtain ⟨_, ⟨_, rfl⟩ | ⟨_, rfl⟩⟩ := linker_cases supplied
  · exact abortFunction_isTyped
  · exact callbackFunction_isTyped

namespace HostedKernel

variable {kernel : HostedKernel} {bytes : Bytes} {config : Config} {program : Module}

theorem Admits.describes (admits : kernel.Admits bytes config program) :
    program.Describes kernel.live := by
  obtain ⟨live, instantiated, host, same⟩ := admits.instantiated
  have describes := Module.describes_of_instantiate? HostState.linker_isTyped instantiated
  rw [same]
  exact ⟨describes.valid, describes.exports, describes.functions, describes.code,
    describes.store.withHost host⟩

/-- The host supplies a function for each import of a hosted module. -/
theorem Admits.links (admits : kernel.Admits bytes config program) :
    program.Links HostState.linker program.imports kernel.live.program.imports.toList := by
  obtain ⟨live, instantiated, host, same⟩ := admits.instantiated
  have links := Module.links_of_instantiate? instantiated
  rw [same]
  exact links

/-- Every function that a hosted module imports is one of the two that the host supplies. -/
theorem Admits.imports (admits : kernel.Admits bytes config program)
    {function : HostFunction HostState} (imported : function ∈ kernel.live.program.imports) :
    function = HostState.abortFunction ∨ function = HostState.callbackFunction := by
  obtain ⟨item, _, linked⟩ :=
    exists_of_forall₂ admits.links (Array.mem_toList_iff.mpr imported)
  obtain ⟨_, cases⟩ := HostState.linker_cases (Module.link?_eq_some linked).1
  exact cases.imp And.right And.right

/-! ## The exported memory -/

/-- The memory that is exported is one that the module declares. -/
theorem Admits.exists_memory (admits : kernel.Admits bytes config program) :
    ∃ type, program.memories[kernel.surface.memory.toNat]? = some type ∧
      type.Describes (kernel.live.store.memoryAt kernel.surface.memory) := by
  obtain ⟨live, instantiated, host, same⟩ := admits.instantiated
  obtain ⟨noMemories, described⟩ := Module.memories_of_instantiate? instantiated
  have describes := admits.describes
  have exported := admits.surface.memory
  rw [Instance.memory?, Instance.export?, describes.exports] at exported
  split at exported
  case h_2 => cases exported
  case h_1 found =>
  cases exported
  have checks := describes.valid
  simp only [Module.isValid, describes.functions, Bool.and_eq_true] at checks
  have valid := List.all_eq_true.mp checks.1.1.1.1.2 _ (List.mem_of_find?_eq_some found)
  have declared : kernel.surface.memory.toNat < program.memories.length := by
    simpa [Module.isExportValid, Module.allMemories, noMemories] using valid
  have type := List.getElem?_eq_getElem declared
  refine ⟨_, type, ?_⟩
  rw [same]
  exact described _ _ type

end HostedKernel

end TableKernels
