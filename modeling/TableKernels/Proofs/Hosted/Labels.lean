import TableKernels.Proofs.Stream
import TableKernels.Proofs.Wasm.Hosts

/-!
# Labels of a hosted kernel

A host keeps the report on the bytes of its module, and notes them in the journal before anything
else. Neither the module nor any operation looks at the report or at earlier records, so kernels
that differ in these labels only give the same results and the same failures for ever, and still
differ in the labels only.
-/

namespace TableKernels

open Wasm

/-! ## Earlier records -/

namespace HostState

variable (earlier : Journal)

/-- The host with records before those of its own. -/
def following (host : HostState) : HostState := { host with journal := earlier ++ host.journal }

theorem log_following (host : HostState) (level : Level) (text : String) :
    (host.following earlier).log level text = (host.log level text).following earlier := by
  simp only [log, following, Array.append_push]

theorem callCallback_following (host : HostState) (value : Int64) :
    (host.following earlier).callCallback value =
      ((host.callCallback value).1, (host.callCallback value).2.following earlier) := by
  unfold callCallback
  cases called : host.callback with
  | none => simp only [following, called, log, Array.append_push]
  | some callback =>
    simp only [following, called]
    cases callback.call value with
    | mk reply after => cases reply <;> rfl

/-- The two functions of the host do not look at earlier records. -/
theorem carries_following {program : Program HostState}
    (linked : ∀ function ∈ program.imports,
      function = abortFunction ∨ function = callbackFunction) :
    program.Carries (following earlier) := by
  intro function imported arguments host
  rcases linked function imported with rfl | rfl
  · unfold abortFunction
    dsimp only
    split
    · simp only [reportAbort, log_following]
      rfl
    · rfl
  · unfold callbackFunction
    dsimp only
    split
    · simp only [callCallback_following]
    · rfl

end HostState

namespace HostedKernel

variable (report : ModuleReport) (earlier : Journal) {kernel : HostedKernel}

/-- The kernel with another report and with records before those of its own. -/
def relabelled (kernel : HostedKernel) : HostedKernel :=
  { kernel with
    report
    live := { kernel.live with store := kernel.live.store.mapHost (.following earlier) } }

/-- A result with the kernel relabelled that comes with it. -/
abbrev relabelledCall {α : Type} (call : α × HostedKernel) : α × HostedKernel :=
  (call.1, call.2.relabelled report earlier)

variable {report earlier}

theorem host_relabelled (kernel : HostedKernel) :
    (kernel.relabelled report earlier).host = kernel.host.following earlier :=
  rfl

theorem withHost_relabelled (kernel : HostedKernel) (host : HostState) :
    (kernel.relabelled report earlier).withHost (host.following earlier) =
      (kernel.withHost host).relabelled report earlier :=
  rfl

theorem config_relabelled (kernel : HostedKernel) :
    (kernel.relabelled report earlier).config = kernel.config :=
  rfl

theorem log_relabelled (kernel : HostedKernel) (level : Level) (text : String) :
    (kernel.relabelled report earlier).log level text =
      (kernel.log level text).relabelled report earlier := by
  rw [log, host_relabelled, HostState.log_following, withHost_relabelled]
  rfl

theorem viewed_relabelled {α β : Type} (view : α → β) {call call' : Except Failure α × HostedKernel}
    (same : call' = relabelledCall report earlier call) :
    (call'.1.map view, call'.2) = relabelledCall report earlier (call.1.map view, call.2) := by
  rw [same]

/-! ## Calls -/

theorem refuse_relabelled {α : Type} (kernel : HostedKernel) (entry : EntryPoint)
    (failure : Failure) : refuse (α := α) entry failure (kernel.relabelled report earlier) =
      relabelledCall report earlier (refuse entry failure kernel) := by
  rw [refuse, log_relabelled]
  rfl

theorem enter_relabelled (linked : kernel.IsLinked) (entry : EntryPoint) (argument : Int64)
    (arguments : List Word) :
    (kernel.relabelled report earlier).enter entry argument arguments =
      relabelledCall report earlier (kernel.enter entry argument arguments) := by
  have begun : (kernel.relabelled report earlier).withHost
      (kernel.relabelled report earlier).host.beginCall =
        (kernel.withHost kernel.host.beginCall).relabelled report earlier := rfl
  have invoked (start : HostedKernel) (same : start.live.program = kernel.live.program) :
      (start.relabelled report earlier).live.program.invoke
          ((start.relabelled report earlier).surface.function entry) arguments
          (start.relabelled report earlier).live.store =
        (start.live.program.invoke (start.surface.function entry) arguments
          start.live.store).mapHost (.following earlier) :=
    Program.invoke_mapHost (same ▸ HostState.carries_following earlier linked) _ _ _
  simp only [enter, begun, invoked (kernel.withHost kernel.host.beginCall) rfl]
  cases (kernel.withHost kernel.host.beginCall).live.program.invoke
    ((kernel.withHost kernel.host.beginCall).surface.function entry) arguments
    (kernel.withHost kernel.host.beginCall).live.store with
  | done results store => rfl
  | trap reason store => exact refuse_relabelled (withStore _ store) entry _
  | unfinished => exact refuse_relabelled _ entry _

section Entries

variable (linked : kernel.IsLinked)

include linked

theorem compute_relabelled {α : Type} (entry : EntryPoint) (read : List Word → α)
    (argument : Int64) : (kernel.relabelled report earlier).compute entry read argument =
      relabelledCall report earlier (kernel.compute entry read argument) := by
  have logged (text : String) : (kernel.log .debug text).IsLinked := linked
  simp only [compute, log_relabelled, config_relabelled, enter_relabelled (logged _)]
  split <;> rfl

theorem updateMemory_relabelled : (kernel.relabelled report earlier).updateMemory =
    relabelledCall report earlier kernel.updateMemory := by
  have logged : (kernel.log .debug "update_memory()").IsLinked := linked
  simp only [updateMemory, log_relabelled, enter_relabelled logged]
  cases (kernel.log .debug "update_memory()").enter .updateMemory 0 [] with
  | mk result after => cases result <;> rfl

omit linked in
theorem settlePanic_relabelled (kernel : HostedKernel) :
    (kernel.relabelled report earlier).settlePanic =
      relabelledCall report earlier kernel.settlePanic := by
  have panic : (kernel.relabelled report earlier).host.callbackPanic = kernel.host.callbackPanic :=
    rfl
  simp only [settlePanic, panic]
  split
  · rfl
  · exact refuse_relabelled (kernel.withHost { kernel.host with callbackPanic := none }) _ _

theorem invokeCallback_relabelled : (kernel.relabelled report earlier).invokeCallback =
    relabelledCall report earlier kernel.invokeCallback := by
  have counter : (kernel.relabelled report earlier).counter = kernel.counter := rfl
  have bound (kernel : HostedKernel) :
      (kernel.relabelled report earlier).isBound = kernel.isBound := rfl
  generalize text : "invoke_callback() with counter " ++ toString kernel.counter.toInt = record
  have logged : (kernel.log .debug record).IsLinked := linked
  simp only [invokeCallback, counter, text, log_relabelled, bound, enter_relabelled logged,
    refuse_relabelled]
  split
  · cases (kernel.log .debug record).enter .invokeCallback kernel.counter [] with
    | mk result after =>
      cases result with
      | error failure => rfl
      | ok words => exact settlePanic_relabelled after
  · rfl

theorem run_relabelled (entry : EntryPoint) (arguments : List Int64) :
    Kernel.run entry arguments (kernel.relabelled report earlier) =
      relabelledCall report earlier (Kernel.run entry arguments kernel) := by
  cases entry with
  | fibonacci =>
    cases arguments with
    | nil => rfl
    | cons n =>
      exact viewed_relabelled (some ∘ Scalar.i64) (compute_relabelled linked .fibonacci _ n)
  | sieve =>
    cases arguments with
    | nil => rfl
    | cons limit =>
      exact viewed_relabelled (some ∘ Scalar.i32) (compute_relabelled linked .sieve _ limit)
  | updateMemory => exact viewed_relabelled (fun _ => none) (updateMemory_relabelled linked)
  | invokeCallback => exact viewed_relabelled (fun _ => none) (invokeCallback_relabelled linked)

theorem call_relabelled (name : String) (arguments : List Scalar) :
    Kernel.call name arguments (kernel.relabelled report earlier) =
      relabelledCall report earlier (Kernel.call name arguments kernel) := by
  rw [Kernel.call, Kernel.call]
  split
  · rfl
  · exact run_relabelled linked _ _

end Entries

/-! ## Accesses -/

theorem checkStream_relabelled (kernel : HostedKernel) (offset length : UInt64) :
    (kernel.relabelled report earlier).checkStream offset length =
      kernel.checkStream offset length :=
  rfl

theorem read_relabelled (kernel : HostedKernel) (offset length : UInt64) :
    (kernel.relabelled report earlier).read offset length = kernel.read offset length :=
  rfl

theorem write_relabelled (kernel : HostedKernel) (offset : UInt64) (data : Bytes) :
    (kernel.relabelled report earlier).write offset data =
      relabelledCall report earlier (kernel.write offset data) := by
  simp only [write, checkStream_relabelled]
  split
  · rfl
  · simp only [relabelled, Store.changeBytes_mapHost]
    rfl

theorem access_relabelled (access : Access) :
    access.perform (kernel.relabelled report earlier) =
      relabelledCall report earlier (access.perform kernel) := by
  have position : (kernel.relabelled report earlier).position = kernel.position := rfl
  cases access with
  | position | read | readInt64 => rfl
  | seek place =>
    refine viewed_relabelled _ ?_
    have size : (kernel.relabelled report earlier).memorySize = kernel.memorySize := rfl
    simp only [seek, size]
    split <;> rfl
  | getData length =>
    refine viewed_relabelled _ ?_
    simp only [getData, position, read_relabelled]
    split <;> rfl
  | putData data =>
    refine viewed_relabelled _ ?_
    simp only [putData, position, write_relabelled]
    cases kernel.write kernel.position data.bytes with
    | mk result after => cases result <;> rfl
  | write offset data => exact viewed_relabelled _ (write_relabelled kernel offset data.bytes)
  | writeInt64 offset value => exact viewed_relabelled _ (write_relabelled kernel offset _)

theorem operation_relabelled (linked : kernel.IsLinked) (operation : Operation) :
    operation.run (kernel.relabelled report earlier) =
      relabelledCall report earlier (operation.run kernel) := by
  cases operation with
  | fibonacci n => exact viewed_relabelled Answer.scalar (run_relabelled linked .fibonacci [n])
  | sieve limit => exact viewed_relabelled Answer.scalar (run_relabelled linked .sieve [limit])
  | updateMemory => exact viewed_relabelled Answer.scalar (run_relabelled linked .updateMemory [])
  | invokeCallback =>
    exact viewed_relabelled Answer.scalar (run_relabelled linked .invokeCallback [])
  | call name arguments =>
    exact viewed_relabelled Answer.scalar (call_relabelled linked name arguments)
  | global | unbind => rfl
  | bind callback =>
    have bound : (kernel.relabelled report earlier).bind callback =
        (kernel.bind callback).relabelled report earlier :=
      log_relabelled (kernel.withHost { kernel.host with callback := some callback }) .info
        "host callback bound"
    exact congrArg (fun kernel => (Except.ok (Answer.scalar none), kernel)) bound
  | write offset data =>
    exact viewed_relabelled (fun _ => Answer.scalar none) (write_relabelled kernel offset data)

end HostedKernel

/-! ## Runs -/

/-- What a step gives back, with the kernel after it. -/
def StreamStep.outcome (kernel : HostedKernel) :
    StreamStep → Except Failure (StreamReply ⊕ Answer) × HostedKernel
  | .access use => (use.perform kernel).map (·.map .inl) id
  | .perform operation => (operation.run kernel).map (·.map .inr) id

/-- What some steps give back one after another, with the kernel after them. -/
def HostedKernel.outcomes (kernel : HostedKernel) :
    List StreamStep → List (Except Failure (StreamReply ⊕ Answer)) × HostedKernel
  | [] => ([], kernel)
  | step :: steps =>
    let (result, between) := step.outcome kernel
    let (results, after) := between.outcomes steps
    (result :: results, after)

namespace HostedKernel

variable {report : ModuleReport} {earlier : Journal} {kernel : HostedKernel}

theorem step_relabelled (streamed : kernel.IsStreamed) (step : StreamStep) :
    step.outcome (kernel.relabelled report earlier) =
      relabelledCall report earlier (step.outcome kernel) := by
  cases step with
  | access access =>
    rw [StreamStep.outcome, access_relabelled]
    rfl
  | perform operation =>
    rw [StreamStep.outcome, operation_relabelled streamed.linked]
    rfl

theorem IsStreamed.step (streamed : kernel.IsStreamed) (step : StreamStep) :
    (step.outcome kernel).2.IsStreamed := by
  cases step with
  | access access => exact streamed.access access
  | perform operation => exact (streamed.operation operation).1

/-- Whatever is done with a kernel, the labels stay what they are and nothing depends on them. -/
theorem outcomes_relabelled (streamed : kernel.IsStreamed) (steps : List StreamStep) :
    (kernel.relabelled report earlier).outcomes steps =
      relabelledCall report earlier (kernel.outcomes steps) := by
  induction steps generalizing kernel with
  | nil => rfl
  | cons step steps hypothesis =>
    simp only [outcomes, step_relabelled streamed, hypothesis (streamed.step step)]

/-- The record of a kernel that was just made. -/
def note (kernel : HostedKernel) : Record :=
  ⟨.info, instantiatedText kernel.report kernel.limits⟩

/--
Whatever is done with either kernel, the results are the same, and the states differ only in the
report, which stays the one that the kernel was made with, and in the note of it.
-/
def ActsLike (kernel other : HostedKernel) : Prop :=
  ∀ steps, ∃ (results : List (Except Failure (StreamReply ⊕ Answer))) (after : HostedKernel),
    kernel.outcomes steps = (results, after.relabelled kernel.report #[kernel.note]) ∧
      other.outcomes steps = (results, after.relabelled other.report #[other.note])

/-- Kernels that were made of one instance act alike. -/
theorem actsLike_of_same {config : Config} {report report' : ModuleReport} {limits : PageBounds}
    {live : LinkedModule} {surface : Surface}
    (streamed : (HostedKernel.mk config report limits live surface false).IsStreamed)
    (fresh : live.store.host.journal = #[]) :
    (log ⟨config, report, limits, live, surface, false⟩ .info
      (instantiatedText report limits)).ActsLike
        (log ⟨config, report', limits, live, surface, false⟩ .info
          (instantiatedText report' limits)) := by
  have noted (label : ModuleReport) :
      log ⟨config, label, limits, live, surface, false⟩ .info (instantiatedText label limits) =
        (HostedKernel.mk config report limits live surface false).relabelled label
          #[⟨.info, instantiatedText label limits⟩] := by
    have host : live.store.host.log .info (instantiatedText label limits) =
        live.store.host.following #[⟨.info, instantiatedText label limits⟩] := by
      rw [HostState.log, HostState.following, fresh]
      rfl
    exact congrArg (fun host => HostedKernel.mk config label limits
      (Instance.withHost live host) surface false) host
  intro steps
  let start := HostedKernel.mk config report limits live surface false
  refine ⟨(start.outcomes steps).1, (start.outcomes steps).2, ?_, ?_⟩
  · rw [noted]
    exact outcomes_relabelled streamed steps
  · rw [noted]
    exact outcomes_relabelled streamed steps

end HostedKernel

end TableKernels
