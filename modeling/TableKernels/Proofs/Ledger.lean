import TableKernels.Proofs.Hosted.History
import TableKernels.Proofs.Reference

/-!
# What a kernel remembers

Between two calls a kernel remembers a counter and a snapshot. A `Ledger` is kept beside a run and
records the calls that succeeded: what the callback was handed and returned, and what the first
eight bytes of memory held. The ledger is written down from the outside, from the callback and the
memory of the host, and in every run of either implementation it accounts for what the kernel says.
-/

namespace TableKernels

open Wasm Compiled

/-! ## Ledgers -/

/-- A success of `invoke_callback`: what the callback was handed, and what it returned. -/
structure Invocation where
  handed : Int64
  returned : Int64

/-- What a callback heard last and returned then, from what it was before and what it is after. -/
def Invocation.between? (before after : Option Callback) : Option Invocation := do
  let callback ← before
  let handed ← (← after).heard.head?
  match callback.reply callback.heard handed with
  | .value returned => some ⟨handed, returned⟩
  | .panic _ => none

/-- The calls of a run that succeeded and left something to remember, the latest first. -/
structure Ledger where
  /-- One for each success of `invoke_callback`, without a value where no callback returned. -/
  invocations : List (Option Invocation)
  /-- What memory held at each success of `update_memory`. -/
  snapshots : List Int64

namespace Ledger

/-- What the latest invocation returned, or zero before the first. -/
def counterOf : List (Option Invocation) → Int64
  | some last :: _ => last.returned
  | _ => 0

/-- In each invocation the callback returned, and was handed what the one before returned. -/
def IsLinked : List (Option Invocation) → Prop
  | [] => True
  | none :: _ => False
  | some last :: earlier => last.handed = counterOf earlier ∧ IsLinked earlier

variable {State : Type} [Session State]

/-- The ledger accounts for what a kernel remembers. -/
structure Describes (ledger : Ledger) (state : State) : Prop where
  linked : IsLinked ledger.invocations
  counter : Kernel.counter state = counterOf ledger.invocations
  snapshot : Kernel.snapshot state = ledger.snapshots.head?

end Ledger

/-- The number in the first eight bytes of a memory, the least significant first. -/
def firstWord (memory : ByteArray) : Int64 :=
  (LittleEndian.decode (memory.extract 0 8).toList).toInt64

section Changes

variable {State : Type} [Session State] {before after : State} {ledger : Ledger}

/-- The callback that is bound. -/
def Session.bound? (state : State) : Option Callback := (Session.unbind state).1

/-- The ledger after a step in which an entry point may have succeeded. -/
def Ledger.extended (ledger : Ledger) (succeeded? : Option EntryPoint) (before after : State) :
    Ledger :=
  match succeeded? with
  | some .updateMemory =>
    { ledger with snapshots := firstWord (Session.memory before) :: ledger.snapshots }
  | some .invokeCallback =>
    { ledger with
      invocations :=
        Invocation.between? (Session.bound? before) (Session.bound? after) :: ledger.invocations }
  | _ => ledger

/-- What a step changes of what a kernel remembers. -/
def Changes (before after : State) : Option EntryPoint → Prop
  | some .updateMemory =>
    Kernel.counter after = Kernel.counter before ∧
      Kernel.snapshot after = some (firstWord (Session.memory before))
  | some .invokeCallback =>
    (∃ callback, Session.bound? before = some callback ∧
      Session.bound? after = some (callback.call (Kernel.counter before)).2 ∧
        (callback.call (Kernel.counter before)).1 = .value (Kernel.counter after)) ∧
      Kernel.snapshot after = Kernel.snapshot before
  | _ =>
    Kernel.counter after = Kernel.counter before ∧ Kernel.snapshot after = Kernel.snapshot before

/-- The ledger keeps accounting for what a step changes. -/
theorem Ledger.Describes.extended (describes : ledger.Describes before)
    {succeeded? : Option EntryPoint} (changes : Changes before after succeeded?) :
    (ledger.extended succeeded? before after).Describes after := by
  have kept (same : Kernel.counter after = Kernel.counter before ∧
      Kernel.snapshot after = Kernel.snapshot before) : ledger.Describes after :=
    ⟨describes.linked, same.1.trans describes.counter, same.2.trans describes.snapshot⟩
  cases succeeded? with
  | none => exact kept changes
  | some entry =>
    cases entry with
    | fibonacci | sieve => exact kept changes
    | updateMemory => exact ⟨describes.linked, changes.1.trans describes.counter, changes.2⟩
    | invokeCallback =>
      obtain ⟨⟨callback, bound, heard, replied⟩, snapshot⟩ := changes
      have invocation : Invocation.between? (Session.bound? before) (Session.bound? after) =
          some ⟨Kernel.counter before, Kernel.counter after⟩ := by
        have reply : callback.reply callback.heard (Kernel.counter before) =
          .value (Kernel.counter after) := replied
        rw [bound, heard]
        simp only [Invocation.between?, Callback.call, List.head?_cons, Option.bind_some, reply,
          bind]
      refine ⟨?_, ?_, snapshot.trans describes.snapshot⟩
      · simp only [Ledger.extended, invocation]
        exact ⟨describes.counter, describes.linked⟩
      · simp only [Ledger.extended, invocation]
        rfl

end Changes

/-! ## Runs -/

/-- The steps that the host of a kernel may take: operations, and others that call nothing. -/
class Hosting (State : Type) [Session State] (Step : outParam Type) where
  after : Step → State → State
  operation? : Step → Option Operation
  after_eq : ∀ {step : Step} {operation : Operation}, operation? step = some operation →
    ∀ state : State, after step state = (operation.run state).2

section Runs

variable {State Step : Type} [Session State] [hosting : Hosting State Step] {state : State}

/-- The entry point that an operation calls with success. -/
def Operation.succeeded? (operation : Operation) (state : State) : Option EntryPoint :=
  if (operation.run state).1.isOk then operation.entered?.map (·.1) else none

/-- The entry point that a step calls with success. -/
def Hosting.succeeded? (step : Step) (state : State) : Option EntryPoint :=
  (hosting.operation? step).bind (·.succeeded? state)

/-- The state after some steps. -/
def Hosting.stateAfter (state : State) : List Step → State
  | [] => state
  | step :: steps => stateAfter (hosting.after step state) steps

/-- The ledger after some steps. -/
def Hosting.ledgerAfter (state : State) (ledger : Ledger) : List Step → Ledger
  | [] => ledger
  | step :: steps =>
    let after := hosting.after step state
    ledgerAfter after (ledger.extended (Hosting.succeeded? step state) state after) steps

/-- Every run from a state in which an invariant holds ends in one. -/
theorem Hosting.stateAfter_induct (invariant : State → Prop)
    (kept : ∀ {state : State}, invariant state →
      ∀ step : Step, invariant (hosting.after step state))
    (holds : invariant state) (steps : List Step) : invariant (hosting.stateAfter state steps) := by
  induction steps generalizing state with
  | nil => exact holds
  | cons step steps hypothesis => exact hypothesis (kept holds step)

/-- What is remembered after a run: what succeeded in it, and nothing that failed since. -/
structure Remembers (start : State) (steps : List Step) : Prop where
  describes : (Hosting.ledgerAfter start ⟨[], []⟩ steps).Describes (Hosting.stateAfter start steps)
  failed : ∀ operation : Operation, operation.isCall = true →
    (operation.run (Hosting.stateAfter start steps)).1.isOk = false →
      Kernel.counter (operation.run (Hosting.stateAfter start steps)).2 =
          Kernel.counter (Hosting.stateAfter start steps) ∧
        Kernel.snapshot (operation.run (Hosting.stateAfter start steps)).2 =
          Kernel.snapshot (Hosting.stateAfter start steps)

/--
An invariant under which every step changes only what the entry point that succeeds in it may:
`update_memory` the snapshot, `invoke_callback` the counter, and everything else nothing.
-/
structure Hosting.IsOrderly (invariant : State → Prop) : Prop where
  fibonacci : ∀ {state : State}, invariant state → ∀ n,
    Changes state (Kernel.fibonacci n state).2 none
  sieve : ∀ {state : State}, invariant state → ∀ limit,
    Changes state (Kernel.sieve limit state).2 none
  updateMemory : ∀ {state : State}, invariant state →
    Changes state (Kernel.updateMemory state).2
      (if (Kernel.updateMemory state).1.isOk then some .updateMemory else none)
  invokeCallback : ∀ {state : State}, invariant state →
    Changes state (Kernel.invokeCallback state).2
      (if (Kernel.invokeCallback state).1.isOk then some .invokeCallback else none)
  others : ∀ {state : State}, invariant state → ∀ step : Step,
    (∀ operation, hosting.operation? step = some operation → operation.isCall = false) →
      Changes state (hosting.after step state) none
  kept : ∀ {state : State}, invariant state → ∀ step : Step, invariant (hosting.after step state)

theorem Operation.entered?_eq_none {operation : Operation} (other : operation.isCall = false) :
    operation.entered? = none := by
  cases operation with
  | fibonacci | sieve | updateMemory | invokeCallback | call => cases other
  | global | bind | unbind | write => rfl

namespace Hosting.IsOrderly

variable {invariant : State → Prop}

theorem run_changes (orderly : hosting.IsOrderly invariant) (holds : invariant state)
    (entry : EntryPoint) (arguments : List Int64) :
    Changes state (Kernel.run entry arguments state).2
      (if (Kernel.run entry arguments state).1.isOk then some entry else none) := by
  cases entry with
  | fibonacci =>
    cases arguments with
    | nil => exact ⟨rfl, rfl⟩
    | cons n rest => split <;> exact orderly.fibonacci holds n
  | sieve =>
    cases arguments with
    | nil => exact ⟨rfl, rfl⟩
    | cons limit rest => split <;> exact orderly.sieve holds limit
  | updateMemory =>
    have changes := orderly.updateMemory holds
    rw [← HostedKernel.isOk_map _ fun _ => (none : Option Scalar)] at changes
    cases arguments <;> exact changes
  | invokeCallback =>
    have changes := orderly.invokeCallback holds
    rw [← HostedKernel.isOk_map _ fun _ => (none : Option Scalar)] at changes
    cases arguments <;> exact changes

theorem call_changes (orderly : hosting.IsOrderly invariant) (holds : invariant state)
    {operation : Operation} (call : operation.isCall = true) :
    Changes state (operation.run state).2 (operation.succeeded? state) := by
  rw [Operation.succeeded?]
  cases entered : operation.entered? with
  | none =>
    obtain ⟨failure, unchanged⟩ := Operation.run_of_not_entered call entered
    rw [Option.map_none, ite_self, unchanged state]
    exact ⟨rfl, rfl⟩
  | some pair =>
    have changes := orderly.run_changes holds pair.1 pair.2
    rw [← HostedKernel.isOk_map _ Answer.scalar] at changes
    rw [Operation.run_of_entered entered]
    exact changes

/-- A step changes what the entry point that succeeds in it may. -/
theorem step_changes (orderly : hosting.IsOrderly invariant) (holds : invariant state)
    (step : Step) : Changes state (hosting.after step state) (hosting.succeeded? step state) := by
  rw [Hosting.succeeded?]
  cases performed : hosting.operation? step with
  | none =>
    refine orderly.others holds step fun operation same => ?_
    cases performed.symm.trans same
  | some operation =>
    rw [Option.bind_some]
    cases call : operation.isCall with
    | true =>
      rw [hosting.after_eq performed]
      exact orderly.call_changes holds call
    | false =>
      rw [Operation.succeeded?, Operation.entered?_eq_none call, Option.map_none, ite_self]
      refine orderly.others holds step fun other same => ?_
      cases performed.symm.trans same
      exact call

/-- The ledger of a run accounts for what is remembered after it. -/
theorem ledgerAfter_describes (orderly : hosting.IsOrderly invariant) (steps : List Step)
    {ledger : Ledger} (holds : invariant state) (describes : ledger.Describes state) :
    (hosting.ledgerAfter state ledger steps).Describes (hosting.stateAfter state steps) := by
  induction steps generalizing state ledger with
  | nil => exact describes
  | cons step steps hypothesis =>
    exact hypothesis (orderly.kept holds step)
      (describes.extended (orderly.step_changes holds step))

/-- A kernel that starts with nothing to remember remembers what succeeds. -/
theorem remembers (orderly : hosting.IsOrderly invariant) (holds : invariant state)
    (counter : Kernel.counter state = 0) (snapshot : Kernel.snapshot state = none)
    (steps : List Step) : Remembers state steps := by
  have empty : Ledger.Describes ⟨[], []⟩ state := ⟨trivial, counter, snapshot⟩
  refine ⟨orderly.ledgerAfter_describes steps holds empty, fun operation call failed => ?_⟩
  have changes :=
    orderly.call_changes (Hosting.stateAfter_induct invariant orderly.kept holds steps) call
  simp only [Operation.succeeded?, failed, Bool.false_eq_true, if_false] at changes
  exact changes

end Hosting.IsOrderly

end Runs

/-! ## The reference -/

/-- A step of the host of a registry: an operation, or any other use of the memory that it owns. -/
inductive RegistryStep
  | perform (operation : Operation)
  | setMemory (memory : LinearMemory)

instance : Hosting Registry RegistryStep where
  after
    | .perform operation, registry => (operation.run registry).2
    | .setMemory memory, registry => { registry with memory }
  operation?
    | .perform operation => some operation
    | .setMemory _ => none
  after_eq := by
    rintro (operation | memory) _ ⟨⟩
    exact fun _ => rfl

namespace Registry

variable {registry : Registry}

theorem Kept.changes {after : Registry} (kept : Kept registry after) :
    Changes registry after none :=
  ⟨kept.counter, kept.snapshot⟩

theorem invokeCallback_changes (registry : Registry) :
    Changes registry registry.invokeCallback.2
      (if registry.invokeCallback.1.isOk then some .invokeCallback else none) := by
  cases bound : registry.callback with
  | none =>
    obtain ⟨failed, kept⟩ := invokeCallback_unbound bound
    rw [failed]
    exact kept.changes
  | some callback =>
    cases reply : (callback.call registry.counter).1 with
    | value next =>
      obtain ⟨journal, invoked⟩ := invokeCallback_bound bound reply
      rw [invoked]
      exact ⟨⟨callback, bound, rfl, reply⟩, rfl⟩
    | panic payload =>
      obtain ⟨journal, invoked⟩ := invokeCallback_panics bound reply
      rw [invoked]
      exact ⟨rfl, rfl⟩

theorem updateMemory_changes (registry : Registry) :
    Changes registry registry.updateMemory.2
      (if registry.updateMemory.1.isOk then some .updateMemory else none) := by
  rcases Nat.lt_or_ge registry.memory.size 8 with short | size
  · obtain ⟨failed, kept⟩ := updateMemory_short short
    rw [failed]
    exact kept.changes
  · rw [updateMemory_eq size, ← decode_extract size]
    exact ⟨rfl, rfl⟩

/-- The reference changes what it may, whatever its configuration and its memory. -/
theorem isOrderly : Hosting.IsOrderly fun _ : Registry => True where
  fibonacci := fun {registry} _ n => (Registry.compute_obeys .fibonacci registry n).2.changes
  sieve := fun {registry} _ limit => (Registry.compute_obeys .sieve registry limit).2.changes
  updateMemory := fun {registry} _ => registry.updateMemory_changes
  invokeCallback := fun {registry} _ => registry.invokeCallback_changes
  others := by
    rintro registry _ (operation | memory) other
    · cases operation with
      | fibonacci | sieve | updateMemory | invokeCallback | call => cases other _ rfl
      | global | bind | unbind => exact ⟨rfl, rfl⟩
      | write offset data =>
        simp only [Hosting.after, Operation.run, Session.write, Registry.write]
        split <;> exact ⟨rfl, rfl⟩
    · exact ⟨rfl, rfl⟩
  kept := fun _ _ => trivial

end Registry

/-! ## The compiled module -/

instance : Hosting HostedKernel HostStep where
  after := HostStep.after
  operation?
    | .perform operation => some operation
    | .seek _ | .getData _ | .putData _ => none
  after_eq := by
    rintro (operation | position | length | data) _ ⟨⟩
    exact fun _ => rfl

namespace HostedKernel

variable {config : Config} {frames : Frames} {kernel : HostedKernel}

theorem Kept.changes {after : HostedKernel} (kept : Kept kernel after) :
    Changes kernel after none :=
  ⟨kept.counter, kept.snapshot⟩

theorem invokeCallback_changes (runs : kernel.Runs config frames) (small : frames.AreSmall) :
    Changes kernel kernel.invokeCallback.2
      (if kernel.invokeCallback.1.isOk then some .invokeCallback else none) := by
  cases bound : kernel.host.callback with
  | none =>
    obtain ⟨failed, kept, _⟩ := invokeCallback_unbound bound
    rw [failed]
    exact kept.changes
  | some callback =>
    obtain ⟨told, same, memory, heard, taken, globals⟩ := invokeCallback_bound runs small bound
    obtain ⟨_, counter, word⟩ := same.runs runs memory globals
    have snapshot := snapshot_eq taken word
    cases reply : (callback.call kernel.counter).1 with
    | value next =>
      rw [reply] at told counter
      rw [told]
      refine ⟨⟨callback, bound, heard, reply.trans ?_⟩, snapshot⟩
      exact congrArg Reply.value counter.symm
    | panic payload =>
      rw [reply] at told counter
      rw [told]
      exact ⟨counter, snapshot⟩

theorem updateMemory_changes (runs : kernel.Runs config frames) (small : frames.AreSmall) :
    Changes kernel kernel.updateMemory.2
      (if kernel.updateMemory.1.isOk then some .updateMemory else none) := by
  obtain ⟨succeeded, same, memory, _, taken, globals⟩ := updateMemory_spec runs small
  obtain ⟨_, counter, word⟩ := same.runs runs memory globals
  have size : 8 ≤ kernel.memory.bytes.size := (by decide : 8 ≤ heapStart).trans runs.heapStart_le
  rw [succeeded]
  refine ⟨counter, ?_⟩
  change kernel.updateMemory.2.snapshot = some (firstWord kernel.memoryBytes)
  rw [HostedKernel.snapshot, taken, runs.memoryBytes, firstWord, decode_extract size, ← word]
  rfl

theorem write_changes (runs : kernel.Runs config frames) (offset : UInt64) (data : Bytes) :
    Changes kernel (kernel.write offset data).2 none := by
  rw [write_eq runs]
  split <;> exact ⟨rfl, rfl⟩

/-- A kernel that runs a compiled module changes what it may. -/
theorem isOrderly (small : frames.AreSmall) :
    Hosting.IsOrderly fun kernel : HostedKernel => kernel.Runs config frames where
  fibonacci := fun runs n => (compute_obeys .fibonacci runs small n).kept.changes
  sieve := fun runs limit => (compute_obeys .sieve runs small limit).kept.changes
  updateMemory := fun runs => updateMemory_changes runs small
  invokeCallback := fun runs => invokeCallback_changes runs small
  others := by
    rintro kernel runs (operation | position | length | data) other
    · cases operation with
      | fibonacci | sieve | updateMemory | invokeCallback | call => cases other _ rfl
      | global | bind | unbind => exact ⟨rfl, rfl⟩
      | write offset data => exact write_changes runs offset data
    · simp only [Hosting.after, HostStep.after, HostedKernel.seek]
      split <;> exact ⟨rfl, rfl⟩
    · simp only [Hosting.after, HostStep.after, HostedKernel.getData]
      split <;> exact ⟨rfl, rfl⟩
    · have changes := write_changes runs kernel.position data
      simp only [Hosting.after, HostStep.after, HostedKernel.putData]
      split
      · next same =>
        rw [same] at changes
        exact changes
      · next same =>
        rw [same] at changes
        exact changes
  kept := fun runs step => (step_spec runs small step).1

end HostedKernel

/-! ## Both implementations -/

/--
In every run of either implementation the counter is what the callback returned in the latest
`invoke_callback` that succeeded, each of which handed on what the one before returned, and the
snapshot is the word that memory held at the latest `update_memory` that succeeded. A call that
fails leaves both. The reference may be given any configuration, memory and callback to start with.
-/
theorem remembers_successes :
    (∀ (config : Config) (memory : LinearMemory) (callback : Option Callback)
      (steps : List RegistryStep),
        Remembers { Registry.ofMemory config memory with callback } steps) ∧
      ∀ (config hostConfig : Config) (bytes : Bytes) (kernel : HostedKernel)
        (steps : List HostStep), compile config = .ok bytes →
          HostedKernel.ofModule bytes hostConfig = .ok kernel → Remembers kernel steps := by
  refine ⟨fun config memory callback steps =>
    Registry.isOrderly.remembers trivial rfl rfl steps, ?_⟩
  intro config hostConfig bytes kernel steps compiled hosted
  obtain ⟨valid, rfl⟩ := compile_eq_ok.mp compiled
  obtain ⟨frames, small, runs, fresh⟩ := HostedKernel.ofModule_spec valid hosted
  have snapshot : kernel.snapshot = none := by
    rw [HostedKernel.snapshot, fresh.snapshotTaken]
    rfl
  exact (HostedKernel.isOrderly small).remembers runs fresh.counter snapshot steps

/-- A callback that adds three, and panics when it is called again. -/
def addingOnce : Callback := .new fun heard value =>
  if heard.isEmpty then .value (value + 3) else .panic (.text "again")

/-- The default module through a success and a failure of its callback and a snapshot. -/
theorem remembers_successes_default : ∃ bytes kernel, compile .default = .ok bytes ∧
    HostedKernel.ofModule bytes .default = .ok kernel ∧
      Remembers kernel [.perform (.bind addingOnce), .perform .invokeCallback,
        .putData [1, 2, 3], .perform .updateMemory, .perform .invokeCallback] := by
  have valid : Config.default.IsValid := Config.validate_eq_ok.mp (by decide)
  have compiled := compile_eq_ok.mpr ⟨valid, rfl⟩
  obtain ⟨kernel, hosted⟩ := HostedKernel.exists_default
  exact ⟨_, kernel, compiled, hosted,
    remembers_successes.2 .default .default _ kernel _ compiled hosted⟩

end TableKernels
