import TableKernels.Proofs.Hosted.History
import TableKernels.Proofs.Reference

/-!
# The compiled module and the reference

A kernel that hosts a compiled module and the reference registry agree after every operation: they
give the same answer and show the same globals, the same binding and the same bytes of the host.
`Agree` is what relates the two states. Every operation keeps it, so whole sessions are the same.
-/

namespace TableKernels

open Wasm Compiled

variable {α β : Type} {config hostConfig : Config} {frames : Frames} {kernel : HostedKernel}
  {registry : Registry}

/-- A callback that never panics, whatever it heard before. -/
def Callback.NeverPanics (callback : Callback) : Prop :=
  ∀ heard value, ∃ next, callback.reply heard value = .value next

/-- A configuration with the caps of another. -/
def Config.withCaps (config caps : Config) : Config :=
  { config with fibonacciCap := caps.fibonacciCap, sieveCap := caps.sieveCap }

theorem Config.IsValid.withCaps (valid : config.IsValid) (caps : hostConfig.IsValid) :
    (config.withCaps hostConfig).IsValid :=
  ⟨valid.finite, valid.initial_pos, valid.initial_le, valid.max_le, caps.fibonacciCap,
    caps.sieveCap⟩

theorem Verdict.capped_withCaps (verdict : Verdict α) (entry : EntryPoint) (argument : Int64) :
    verdict.capped (config.withCaps hostConfig) entry argument =
      verdict.capped hostConfig entry argument := by
  cases entry <;> rfl

/--
What a host may do in a session that is compared: callbacks do not panic, and writes stay in the
host's region.
-/
def Operation.IsAdmissible : Operation → Prop
  | .bind callback => callback.NeverPanics
  | .write offset data => offset.toNat + data.length ≤ heapStart
  | _ => True

/-- A hosted kernel and a registry between two operations. -/
structure Agree (config hostConfig : Config) (frames : Frames) (kernel : HostedKernel)
    (registry : Registry) : Prop where
  runs : kernel.Runs config frames
  kernelConfig : kernel.config = hostConfig
  registryConfig : registry.config = config.withCaps hostConfig
  counter : kernel.counter = registry.counter
  snapshot : kernel.snapshot = registry.snapshot
  callback : kernel.host.callback = registry.callback
  replies : ∀ callback, registry.callback = some callback → callback.NeverPanics
  size : heapStart ≤ registry.memory.size
  hostRegion : ∀ address, address < heapStart →
    byteIn kernel.memory.bytes address = byteIn registry.memory.bytes address

namespace Agree

/-- Both sides of an operation: the same answer, and agreement again. -/
structure Step (config hostConfig : Config) (frames : Frames)
    (left : Except Failure α × HostedKernel) (right : Except Failure α × Registry) : Prop where
  answer : erased left.1 = erased right.1
  after : Agree config hostConfig frames left.2 right.2

theorem erased_map (result : Except Failure α) (change : α → β) :
    erased (result.map change) = (erased result).map change := by
  cases result <;> rfl

theorem Step.map {left : Except Failure α × HostedKernel} {right : Except Failure α × Registry}
    (step : Step config hostConfig frames left right) (change : α → β) :
    Step config hostConfig frames (left.map (·.map change) id) (right.map (·.map change) id) :=
  ⟨(erased_map _ _).trans ((congrArg _ step.answer).trans (erased_map _ _).symm), step.after⟩

theorem hostRegion_of_leaves {verdict : Verdict α} {before after : Memory}
    (leaves : verdict.Leaves before after) (address : ℕ) (lt : address < heapStart) :
    byteIn after.bytes address = byteIn before.bytes address := by
  cases verdict with
  | refused | starved | fixed => rw [show after = before from leaves]
  | tabled bytes answer => exact leaves.1.outside address (.inl lt)

/-- A call that obeys the same verdict on both sides. -/
theorem numeric {entry : EntryPoint} {argument : Int64} {verdict : Verdict α}
    {left : Except Failure α × HostedKernel} {right : Except Failure α × Registry}
    (agree : Agree config hostConfig frames kernel registry)
    (obeys : HostedKernel.Obeys entry argument verdict kernel left)
    (result : erased right.1 = verdict.result entry argument)
    (kept : Registry.Kept registry right.2) : Step config hostConfig frames left right where
  answer := obeys.result.trans result.symm
  after :=
    { runs := obeys.runs agree.runs
      kernelConfig := obeys.kept.config.trans agree.kernelConfig
      registryConfig := kept.config.trans agree.registryConfig
      counter := by rw [obeys.kept.counter, agree.counter, kept.counter]
      snapshot := by rw [obeys.kept.snapshot, agree.snapshot, kept.snapshot]
      callback := by rw [obeys.kept.callback, agree.callback, kept.callback]
      replies := kept.callback ▸ agree.replies
      size := kept.memory ▸ agree.size
      hostRegion := fun address lt => by
        rw [hostRegion_of_leaves obeys.memory address lt, agree.hostRegion address lt,
          kept.memory] }

theorem compute (number : NumericFunction α)
    (agree : Agree config hostConfig frames kernel registry) (small : frames.AreSmall)
    (argument : Int64) :
    Step config hostConfig frames (kernel.compute number.entry number.read argument)
      (registry.compute number.entry number.run argument) := by
  obtain ⟨result, kept⟩ := Registry.compute_obeys number.toNumeric registry argument
  rw [agree.registryConfig, Verdict.capped_withCaps, ← agree.kernelConfig] at result
  exact agree.numeric (HostedKernel.compute_obeys number agree.runs small argument) result kept

theorem updateMemory (agree : Agree config hostConfig frames kernel registry)
    (small : frames.AreSmall) :
    Step config hostConfig frames kernel.updateMemory registry.updateMemory := by
  obtain ⟨ok, same, memory, callback, taken, globals⟩ :=
    HostedKernel.updateMemory_spec agree.runs small
  obtain ⟨runs, counter, snapshotWord⟩ := same.runs agree.runs memory globals
  have eight_le : 8 ≤ heapStart := by decide
  -- The word that is taken lies in the region of the host, which is the same on both sides.
  have word : Memory.wordAt kernel.memory.bytes 0 = Memory.wordAt registry.memory.bytes 0 :=
    Memory.wordAt_congr fun address _ lt => agree.hostRegion address (by omega)
  have snapshot : kernel.updateMemory.2.snapshot =
      some (Memory.wordAt registry.memory.bytes 0).toInt64 := by
    rw [HostedKernel.snapshot, if_pos taken, ← word, ← snapshotWord]
    rfl
  rw [Registry.updateMemory_eq (eight_le.trans agree.size)]
  refine ⟨by rw [ok], ⟨runs, same.config.trans agree.kernelConfig, agree.registryConfig,
    counter.trans agree.counter, snapshot, callback.trans agree.callback, agree.replies,
    agree.size, ?_⟩⟩
  rw [memory]
  exact agree.hostRegion

theorem invokeCallback (agree : Agree config hostConfig frames kernel registry)
    (small : frames.AreSmall) :
    Step config hostConfig frames kernel.invokeCallback registry.invokeCallback := by
  cases bound : registry.callback with
  | none =>
    obtain ⟨failed, kept, memory⟩ :=
      HostedKernel.invokeCallback_unbound (agree.callback.trans bound)
    obtain ⟨failed', kept'⟩ := Registry.invokeCallback_unbound bound
    refine ⟨by rw [failed, failed'], ?_⟩
    refine ⟨kept.runs agree.runs (memory ▸ agree.runs.declared) (congrArg Memory.maxPages memory),
      kept.config.trans agree.kernelConfig, kept'.config.trans agree.registryConfig,
      by rw [kept.counter, agree.counter, kept'.counter],
      by rw [kept.snapshot, agree.snapshot, kept'.snapshot],
      by rw [kept.callback, agree.callback, kept'.callback], kept'.callback ▸ agree.replies,
      kept'.memory ▸ agree.size, ?_⟩
    rw [memory, kept'.memory]
    exact agree.hostRegion
  | some callback =>
    -- The callback hears the same counter on both sides, and replies with a number.
    obtain ⟨next, replies⟩ := agree.replies callback bound callback.heard registry.counter
    have reply : (callback.call registry.counter).1 = .value next := replies
    obtain ⟨told, same, memory, heard, taken, globals⟩ :=
      HostedKernel.invokeCallback_bound agree.runs small (agree.callback.trans bound)
    rw [agree.counter, reply] at told globals
    obtain ⟨runs, counter, snapshotWord⟩ := same.runs agree.runs memory globals
    obtain ⟨journal, invoked⟩ := Registry.invokeCallback_bound bound reply
    have snapshot := HostedKernel.snapshot_eq taken snapshotWord
    rw [invoked]
    refine ⟨congrArg erased told, ⟨runs, same.config.trans agree.kernelConfig,
      agree.registryConfig, counter, snapshot.trans agree.snapshot, ?_, ?_, agree.size, ?_⟩⟩
    · rw [heard, agree.counter]
    · intro later held
      cases held
      exact fun heard value => agree.replies callback bound heard value
    · rw [memory]
      exact agree.hostRegion

/-- Every entry point keeps agreement, whatever arguments it is run on. -/
theorem run (agree : Agree config hostConfig frames kernel registry) (small : frames.AreSmall)
    (entry : EntryPoint) (arguments : List Int64) :
    Step config hostConfig frames (Kernel.run entry arguments kernel)
      (Kernel.run entry arguments registry) := by
  cases entry with
  | fibonacci =>
    cases arguments with
    | nil => exact ⟨rfl, agree⟩
    | cons n rest => exact (compute .fibonacci agree small n).map (some ∘ Scalar.i64)
  | sieve =>
    cases arguments with
    | nil => exact ⟨rfl, agree⟩
    | cons limit rest => exact (compute .sieve agree small limit).map (some ∘ Scalar.i32)
  | updateMemory =>
    have step := (agree.updateMemory small).map fun _ => (none : Option Scalar)
    cases arguments <;> exact step
  | invokeCallback =>
    have step := (agree.invokeCallback small).map fun _ => (none : Option Scalar)
    cases arguments <;> exact step

theorem bind (agree : Agree config hostConfig frames kernel registry) {callback : Callback}
    (replies : callback.NeverPanics) :
    Agree config hostConfig frames (kernel.bind callback) (registry.bind callback) where
  runs := agree.runs.withHost _
  kernelConfig := agree.kernelConfig
  registryConfig := agree.registryConfig
  counter := agree.counter
  snapshot := agree.snapshot
  callback := rfl
  replies := fun _ bound => Option.some.inj bound ▸ replies
  size := agree.size
  hostRegion := agree.hostRegion

theorem unbind (agree : Agree config hostConfig frames kernel registry) :
    kernel.unbind.1 = registry.unbind.1 ∧
      Agree config hostConfig frames kernel.unbind.2 registry.unbind.2 where
  left := agree.callback
  right :=
    { runs := agree.runs.withHost _
      kernelConfig := agree.kernelConfig
      registryConfig := agree.registryConfig
      counter := agree.counter
      snapshot := agree.snapshot
      callback := rfl
      replies := nofun
      size := agree.size
      hostRegion := agree.hostRegion }

/-- A write in the host's region succeeds on both sides. -/
theorem write (agree : Agree config hostConfig frames kernel registry) {offset : UInt64}
    {data : Bytes} (inside : offset.toNat + data.length ≤ heapStart) :
    Step config hostConfig frames (kernel.write offset data) (registry.write offset data) := by
  have fits : offset.toNat + data.length ≤ kernel.memory.bytes.size :=
    inside.trans agree.runs.heapStart_le
  rw [HostedKernel.write_eq agree.runs, agree.runs.checkStream_eq_ok fits,
    Registry.write_eq (inside.trans agree.size)]
  refine ⟨rfl, ⟨agree.runs.withBytes (size_overwrite _ _ _), agree.kernelConfig,
    agree.registryConfig, agree.counter, agree.snapshot, agree.callback, agree.replies, ?_, ?_⟩⟩
  · exact agree.size.trans_eq (size_overwrite _ _ _).symm
  · intro address lt
    change byteIn (overwrite kernel.memory.bytes offset.toNat data) address =
      byteIn (overwrite registry.memory.bytes offset.toNat data) address
    rw [byteIn_overwrite _ _ _ fits, byteIn_overwrite _ _ _ (inside.trans agree.size),
      agree.hostRegion address lt]

theorem sight_eq (agree : Agree config hostConfig frames kernel registry) :
    sight kernel = sight registry := by
  have constant : kernel.constant = registry.config.globalConst := by
    rw [agree.runs.constant, agree.registryConfig]
    rfl
  have isBound : kernel.isBound = registry.isBound := congrArg Option.isSome agree.callback
  have region : kernel.memoryBytes.extract 0 heapStart =
      registry.memory.bytes.extract 0 heapStart := by
    have left := size_extract agree.runs.heapStart_le
    rw [agree.runs.memoryBytes]
    refine bytes_ext (left.trans (size_extract agree.size).symm) fun address lt => ?_
    rw [left] at lt
    rw [byteIn_extract agree.runs.heapStart_le lt, byteIn_extract agree.size lt,
      agree.hostRegion address lt]
  have counter := agree.counter
  have snapshot := agree.snapshot
  simp only [sight, Kernel.constant, Kernel.counter, Kernel.snapshot, Session.isBound,
    Session.memory, constant, counter, snapshot, isBound, region]

/-- Every admissible operation keeps agreement. -/
theorem step (agree : Agree config hostConfig frames kernel registry) (small : frames.AreSmall)
    {operation : Operation} (admissible : operation.IsAdmissible) :
    Step config hostConfig frames (operation.run kernel) (operation.run registry) := by
  by_cases call : operation.isCall = true
  · cases entered : operation.entered? with
    | none =>
      obtain ⟨failure, unchanged⟩ := Operation.run_of_not_entered call entered
      rw [unchanged kernel, unchanged registry]
      exact ⟨rfl, agree⟩
    | some pair =>
      rw [Operation.run_of_entered entered, Operation.run_of_entered entered]
      exact (agree.run small pair.1 pair.2).map Answer.scalar
  · cases operation with
    | fibonacci | sieve | updateMemory | invokeCallback | call => exact absurd rfl call
    | global name =>
      have constant : Kernel.constant kernel = Kernel.constant registry :=
        congrArg Sight.constant agree.sight_eq
      have counter : Kernel.counter kernel = Kernel.counter registry := agree.counter
      have snapshot : Kernel.snapshot kernel = Kernel.snapshot registry := agree.snapshot
      have same : Kernel.global kernel name = Kernel.global registry name := by
        simp only [Kernel.global, constant, counter, snapshot]
      exact ⟨congrArg (fun value => erased (value.map Answer.scalar)) same, agree⟩
    | bind callback => exact ⟨rfl, agree.bind admissible⟩
    | unbind =>
      obtain ⟨removed, after⟩ := agree.unbind
      exact ⟨congrArg (fun callback => Except.ok (Answer.removed callback)) removed, after⟩
    | write offset data => exact (agree.write admissible).map fun _ => Answer.scalar none

/-- Two states that agree have the same sessions. -/
theorem trace_eq (small : frames.AreSmall) (operations : List Operation)
    (admissible : ∀ operation ∈ operations, operation.IsAdmissible)
    (agree : Agree config hostConfig frames kernel registry) :
    trace operations kernel = trace operations registry := by
  induction operations generalizing kernel registry with
  | nil => rfl
  | cons operation operations hypothesis =>
    obtain ⟨first, rest⟩ := List.forall_mem_cons.mp admissible
    have step := agree.step small first
    rw [trace_cons, trace_cons, step.answer, step.after.sight_eq, hypothesis rest step.after]

end Agree

theorem agree_fresh (valid : config.IsValid) (runs : kernel.Runs config frames)
    (fresh : kernel.IsFresh config hostConfig) :
    Agree config hostConfig frames kernel (Registry.ofMemory (config.withCaps hostConfig)
      (.ofPages config.initialPages.toNat)) where
  runs := runs
  kernelConfig := fresh.config
  registryConfig := rfl
  counter := fresh.counter
  snapshot := by
    rw [HostedKernel.snapshot, fresh.snapshotTaken]
    rfl
  callback := fresh.callback
  replies := nofun
  size := by
    have size : (LinearMemory.ofPages config.initialPages.toNat).size = _ := size_firstMemory config
    have initial_pos := valid.initial_pos
    change heapStart ≤ (LinearMemory.ofPages config.initialPages.toNat).size
    rw [size]
    simp only [heapStart, pageSize]
    omega
  hostRegion := fun address _ => by
    rw [fresh.memory]
    rfl

/-- The module that is compiled for a configuration is hosted under it. -/
theorem HostedKernel.ofConfig_eq {bytes : Bytes} (compiled : compile config = .ok bytes) :
    HostedKernel.ofConfig config = HostedKernel.ofModule bytes config := by
  have checked := Config.validate_eq_ok.mpr (compile_eq_ok.mp compiled).1
  rw [ofConfig, checked, compiled]
  rfl

/--
A kernel that hosts the module compiled for one configuration, under the caps of another, and the
reference for both of them show the same and give the same answers in every session, but for the
texts of internal faults. The caps may be those of the first configuration itself, whose kernel this
is then.
-/
theorem compiled_interchangeable (config hostConfig : Config) (bytes : Bytes)
    (kernel : HostedKernel) (compiled : compile config = .ok bytes)
    (hosted : HostedKernel.ofModule bytes hostConfig = .ok kernel) :
    (hostConfig = config → HostedKernel.ofConfig config = .ok kernel) ∧
      ∃ registry, Registry.ofConfig (config.withCaps hostConfig) = .ok registry ∧
        sight kernel = sight registry ∧
          ∀ operations : List Operation,
            (∀ operation ∈ operations, operation.IsAdmissible) →
              trace operations kernel = trace operations registry := by
  refine ⟨fun same => (HostedKernel.ofConfig_eq compiled).trans (same ▸ hosted), ?_⟩
  obtain ⟨valid, rfl⟩ := compile_eq_ok.mp compiled
  obtain ⟨frames, small, runs, fresh⟩ := HostedKernel.ofModule_spec valid hosted
  have checked := Config.validate_eq_ok.mpr (valid.withCaps (HostedKernel.hostConfig_valid hosted))
  have agree := agree_fresh valid runs fresh
  refine ⟨_, ?_, agree.sight_eq, fun operations admissible =>
    Agree.trace_eq small operations admissible agree⟩
  rw [Registry.ofConfig, checked]
  rfl

/-- A callback that replies with twice what it hears. -/
def doubling : Callback := .new fun _ value => .value (value + value)

/-- The default module and the reference agree through a write, a snapshot and a callback. -/
theorem compiled_interchangeable_default : ∃ bytes kernel registry,
    compile .default = .ok bytes ∧ HostedKernel.ofModule bytes .default = .ok kernel ∧
      Registry.ofConfig (Config.default.withCaps .default) = .ok registry ∧
        trace [.write 0 [1, 2, 3], .updateMemory, .bind doubling, .invokeCallback, .sieve 100,
            .call "fibonacci" [.i64 (-1)]] kernel =
          trace [.write 0 [1, 2, 3], .updateMemory, .bind doubling, .invokeCallback, .sieve 100,
            .call "fibonacci" [.i64 (-1)]] registry := by
  have valid : Config.default.IsValid := Config.validate_eq_ok.mp (by decide)
  have compiled := compile_eq_ok.mpr ⟨valid, rfl⟩
  obtain ⟨kernel, hosted⟩ := HostedKernel.exists_default
  obtain ⟨_, registry, made, _, same⟩ :=
    compiled_interchangeable .default .default _ kernel compiled hosted
  refine ⟨_, kernel, registry, compiled, hosted, made, same _ ?_⟩
  simp only [List.forall_mem_cons, Operation.IsAdmissible]
  exact ⟨by decide, trivial, fun _ value => ⟨value + value, rfl⟩, trivial, trivial, trivial,
    List.forall_mem_nil _⟩

end TableKernels
