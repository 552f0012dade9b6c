import TableKernels.Proofs.Hosted.History
import TableKernels.Proofs.Reference
import TableKernels.Proofs.Wasm.Runs

/-!
# Diagnostics of a hosted module

A call that enters a compiled module leaves the host with the diagnostic of its failure, or with none
if it succeeds. Everything else, calls that the host refuses included, leaves the diagnostic that is
there. So what a host shows is always the diagnostic of the latest call that entered.
-/

namespace TableKernels

open Wasm Compiled

variable {α β : Type}

/-- The diagnostic of a result: that of the failure, and none with a success. -/
def diagnostic? : Except Failure α → Option Abort
  | .ok _ => none
  | .error failure => failure.abort?

theorem diagnostic?_map (result : Except Failure α) (change : α → β) :
    diagnostic? (result.map change) = diagnostic? result := by
  cases result <;> rfl

/-! ## Refusals by the host -/

/-- The failure of an argument in the domain that exceeds the host's cap. -/
def Config.excess? (config : Config) (entry : EntryPoint) (argument : Int64) : Option Failure :=
  match config.cap? entry with
  | some cap =>
    if cap < argument ∧ domainFault? entry argument = none then
      some (.invalidArgument entry argument .exceedsHostLimit)
    else none
  | none => none

theorem Config.checkHostLimit_eq (config : Config) (entry : EntryPoint) (argument : Int64) :
    config.checkHostLimit entry argument =
      match config.excess? entry argument with
      | some failure => .error failure
      | none => .ok () := by
  have inDomain : (checkDomain entry argument).isOk = true ↔
      domainFault? entry argument = none := by
    rw [checkDomain_eq]
    cases domainFault? entry argument with
    | none => exact ⟨fun _ => rfl, fun _ => rfl⟩
    | some check => simp only [Except.isOk, Except.toBool, reduceCtorEq, Bool.false_eq_true]
  simp only [checkHostLimit, excess?, Bool.and_eq_true, decide_eq_true_eq, inDomain]
  cases config.cap? entry with
  | none => rfl
  | some cap =>
    simp only
    split <;> rfl

namespace HostedKernel

variable {config hostConfig : Config} {frames : Frames} {kernel after : HostedKernel}
  {entry : EntryPoint} {arguments : List Int64} {argument : Int64} {failure : Failure}

/-- The failure with which the host refuses a call before it enters the module, if it does. -/
def hostRefusal? (kernel : HostedKernel) : EntryPoint → List Int64 → Option Failure
  | .fibonacci, n :: _ => kernel.config.excess? .fibonacci n
  | .sieve, limit :: _ => kernel.config.excess? .sieve limit
  | .updateMemory, _ => none
  | .invokeCallback, _ => if kernel.isBound then none else some .unboundCallback
  | entry, [] => some (.arityMismatch entry.name entry.params.length 0)

/-- The host shows the diagnostic of a result, and there is one if the result is a failure. -/
structure Shows (after : HostedKernel) (result : Except Failure α) : Prop where
  diagnostic : after.lastAbort = diagnostic? result
  failed : result.isOk = false → after.lastAbort.isSome = true

/-- What a call tells: the refusal, if there is one, and otherwise the diagnostic of its result. -/
structure Tells (kernel : HostedKernel) (refusal? : Option Failure)
    (call : Except Failure α × HostedKernel) : Prop where
  refused : ∀ failure, refusal? = some failure →
    call.1 = .error failure ∧ call.2.lastAbort = kernel.lastAbort
  entered : refusal? = none → call.2.Shows call.1

theorem Shows.ok (silent : after.lastAbort = none) (value : α) :
    after.Shows (.ok value : Except Failure α) :=
  ⟨silent, nofun⟩

theorem Shows.error (abort : Abort) (shown : after.lastAbort = some abort)
    (told : failure.abort? = some abort) : after.Shows (.error failure : Except Failure α) :=
  ⟨shown.trans told.symm, fun _ => by rw [shown]; rfl⟩

theorem Shows.map {result : Except Failure α} (shows : after.Shows result) (change : α → β) :
    after.Shows (result.map change) := by
  refine ⟨shows.diagnostic.trans (diagnostic?_map result change).symm, fun failed => ?_⟩
  rw [isOk_map] at failed
  exact shows.failed failed

theorem Tells.of_refused {call : Except Failure α × HostedKernel}
    (failed : call.1 = .error failure) (same : call.2.lastAbort = kernel.lastAbort) :
    kernel.Tells (some failure) call where
  refused := fun _ refused => Option.some.inj refused ▸ ⟨failed, same⟩
  entered := nofun

theorem Tells.of_entered {call : Except Failure α × HostedKernel}
    (shows : call.2.Shows call.1) : kernel.Tells none call where
  refused := nofun
  entered := fun _ => shows

theorem Tells.map {refusal? : Option Failure} {call : Except Failure α × HostedKernel}
    (tells : kernel.Tells refusal? call) (change : α → β) :
    kernel.Tells refusal? (call.map (·.map change) id) := by
  refine ⟨fun failure refused => ?_, fun admitted => (tells.entered admitted).map change⟩
  obtain ⟨failed, same⟩ := tells.refused failure refused
  refine ⟨?_, same⟩
  rw [Prod.map_fst, failed]
  rfl

theorem tells_capped (after : HostedKernel) {call : Except Failure α × HostedKernel}
    (same : after.lastAbort = kernel.lastAbort) (shows : call.2.Shows call.1) :
    kernel.Tells (after.config.excess? entry argument)
      (match after.config.checkHostLimit entry argument with
        | .error failure => (.error failure, after)
        | .ok () => call) := by
  rw [Config.checkHostLimit_eq]
  cases after.config.excess? entry argument with
  | some failure => exact .of_refused rfl same
  | none => exact .of_entered shows

/-! ## Calls that enter -/

/-- Entering the module shows the diagnostic with which its function settles. -/
theorem enter_shows (kernel : HostedKernel) {words : List Word} {word : α → Word}
    {verdict : Verdict α}
    (settles : Settles entry argument word (kernel.withHost kernel.host.beginCall).live.store verdict
      (kernel.live.program.invoke (kernel.surface.function entry) words
        (kernel.withHost kernel.host.beginCall).live.store)) :
    (kernel.enter entry argument words).2.Shows (kernel.enter entry argument words).1 := by
  rw [enter_eq_match]
  generalize kernel.live.program.invoke (kernel.surface.function entry) words
    (kernel.withHost kernel.host.beginCall).live.store = result at settles
  cases settles with
  | refused check =>
    refine Shows.error (argumentAbort entry check argument.toUInt64) rfl ?_
    change (trapFailure entry argument (some _) _).abort? = _
    rw [trapFailure_refused, Failure.abort?, argumentAbort, toInt32_toUInt32]
  | starved bytes =>
    exact Shows.error (tableAbort entry.site bytes) rfl rfl
  | fixed answer => exact Shows.ok rfl _
  | tabled bytes answer memory framed fits => exact Shows.ok rfl _

theorem compute_tells (number : NumericFunction α) (runs : kernel.Runs config frames)
    (small : frames.AreSmall) (argument : Int64) :
    kernel.Tells (kernel.config.excess? number.entry argument)
      (kernel.compute number.entry number.read argument) :=
  tells_capped (kernel.log .debug _) rfl
    ((enter_shows (kernel.log .debug _) (invoke_settles number runs small _ argument)).map
      number.read)

theorem updateMemory_tells (runs : kernel.Runs config frames) (small : frames.AreSmall) :
    kernel.Tells none kernel.updateMemory := by
  obtain ⟨host, _, silent, updated⟩ := updateMemory_eq runs small
  rw [updated]
  exact .of_entered (Shows.ok (by exact silent) ())

theorem invokeCallback_tells (runs : kernel.Runs config frames) (small : frames.AreSmall) :
    kernel.Tells (if kernel.isBound then none else some .unboundCallback)
      kernel.invokeCallback := by
  cases bound : kernel.host.callback with
  | none =>
    have idle : kernel.isBound = false := by
      rw [isBound, HostState.isBound, bound]
      rfl
    rw [idle]
    refine .of_refused (invokeCallback_unbound bound).1 ?_
    have logged : (kernel.log .debug ("invoke_callback() with counter " ++
        toString kernel.counter.toInt)).isBound = false := idle
    rw [invokeCallback, logged]
    rfl
  | some callback =>
    have ready : kernel.isBound = true := by
      rw [isBound, HostState.isBound, bound]
      rfl
    obtain ⟨host, spoken, silent, quiet, invoked⟩ := invokeCallback_eq runs small bound
    rw [ready, invoked]
    refine .of_entered ?_
    simp only [HostState.callCallback, spoken]
    cases reply : (callback.call kernel.counter).1 with
    | value next =>
      rw [settlePanic_silent (by exact quiet)]
      exact Shows.ok (by exact silent) ()
    | panic payload =>
      exact Shows.error (HostState.panicAbort kernel.counter) rfl rfl

/-- Every entry point tells what the host refuses, or the diagnostic of its result. -/
theorem run_tells (runs : kernel.Runs config frames) (small : frames.AreSmall)
    (entry : EntryPoint) (arguments : List Int64) :
    kernel.Tells (kernel.hostRefusal? entry arguments) (Kernel.run entry arguments kernel) := by
  have missing (failure : Failure) : kernel.Tells (some failure)
      ((.error failure, kernel) : Except Failure (Option Scalar) × HostedKernel) :=
    .of_refused rfl rfl
  cases entry with
  | fibonacci =>
    cases arguments with
    | nil => exact missing _
    | cons n rest => exact (compute_tells .fibonacci runs small n).map (some ∘ Scalar.i64)
  | sieve =>
    cases arguments with
    | nil => exact missing _
    | cons limit rest => exact (compute_tells .sieve runs small limit).map (some ∘ Scalar.i32)
  | updateMemory =>
    have tells := (updateMemory_tells runs small).map fun _ => (none : Option Scalar)
    cases arguments <;> exact tells
  | invokeCallback =>
    have tells := (invokeCallback_tells runs small).map fun _ => (none : Option Scalar)
    cases arguments <;> exact tells

/-- A call that goes to an entry point tells what the entry point tells. -/
theorem operation_tells (runs : kernel.Runs config frames) (small : frames.AreSmall)
    {operation : Operation} (entered : operation.entered? = some (entry, arguments)) :
    kernel.Tells (kernel.hostRefusal? entry arguments) (operation.run kernel) := by
  rw [Operation.run_of_entered entered]
  exact (run_tells runs small entry arguments).map Answer.scalar

theorem erased_eq_invalidArgument {result : Except Failure α} {check : ArgumentCheck}
    (told : erased result = .error (.invalidArgument entry argument check)) :
    result = .error (.invalidArgument entry argument check) := by
  cases result with
  | ok value => cases told
  | error failure =>
    have same : failure.erased = .invalidArgument entry argument check := Except.error.inj told
    cases failure with
    | internalTrap report => cases same
    | _ => exact congrArg Except.error same

theorem compute_of_fault (number : NumericFunction α) (runs : kernel.Runs config frames)
    (small : frames.AreSmall) {check : ArgumentCheck}
    (passed : kernel.config.checkHostLimit number.entry argument = .ok ())
    (fault : domainFault? number.entry argument = some check) :
    (kernel.compute number.entry number.read argument).1 =
      .error (.invalidArgument number.entry argument check) := by
  have told := (compute_obeys number runs small argument).result
  rw [Verdict.capped, passed, number.refused fault] at told
  exact erased_eq_invalidArgument told

/-- An argument outside the domain is refused by the module, with all of its bits. -/
theorem run_of_fault (runs : kernel.Runs config frames) (small : frames.AreSmall)
    {check : ArgumentCheck} (fault : domainFault? entry argument = some check)
    (rest : List Int64) :
    (Kernel.run entry (argument :: rest) kernel).1 =
      .error (.invalidArgument entry argument check) := by
  have passed : kernel.config.checkHostLimit entry argument = .ok () :=
    Config.checkHostLimit_of_fault fault
  cases entry with
  | fibonacci =>
    exact congrArg (Except.map (some ∘ Scalar.i64))
      (compute_of_fault .fibonacci runs small passed fault)
  | sieve =>
    exact congrArg (Except.map (some ∘ Scalar.i32))
      (compute_of_fault .sieve runs small passed fault)
  | updateMemory | invokeCallback => cases fault

/-! ## Everything else -/

theorem lastAbort_write (kernel : HostedKernel) (offset : UInt64) (data : Bytes) :
    (kernel.write offset data).2.lastAbort = kernel.lastAbort := by
  unfold HostedKernel.write
  split
  · rfl
  · exact congrArg HostState.lastAbort (kernel.live.store.host_changeBytes _ _)

end HostedKernel

/-- A step that calls no entry point. -/
def HostStep.IsQuiet : HostStep → Prop
  | .perform operation => operation.entered? = none
  | .seek _ | .getData _ | .putData _ => True

/-- A step that calls no entry point leaves the diagnostic that is there. -/
theorem HostStep.IsQuiet.lastAbort_after {step : HostStep} (quiet : step.IsQuiet)
    (kernel : HostedKernel) : (step.after kernel).lastAbort = kernel.lastAbort := by
  cases step with
  | seek position =>
    simp only [HostStep.after, HostedKernel.seek]
    split <;> rfl
  | getData length =>
    simp only [HostStep.after, HostedKernel.getData]
    split <;> rfl
  | putData data =>
    have written := kernel.lastAbort_write kernel.position data
    simp only [HostStep.after, HostedKernel.putData]
    split
    · next same =>
      rw [same] at written
      exact written
    · next same =>
      rw [same] at written
      exact written
  | perform operation =>
    cases call : operation.isCall with
    | true =>
      obtain ⟨failure, unchanged⟩ := Operation.run_of_not_entered call quiet
      rw [HostStep.after, unchanged kernel]
    | false =>
      cases operation with
      | fibonacci | sieve | updateMemory | invokeCallback | call => cases call
      | global | bind | unbind => rfl
      | write offset data => exact kernel.lastAbort_write offset data

/-! ## Histories -/

/-- The result of a step that enters the module. -/
def HostStep.result? (kernel : HostedKernel) : HostStep → Option (Except Failure Answer)
  | .perform operation => do
    let (entry, arguments) ← operation.entered?
    match kernel.hostRefusal? entry arguments with
    | some _ => none
    | none => some (operation.run kernel).1
  | .seek _ | .getData _ | .putData _ => none

namespace HostedKernel

variable {config hostConfig : Config} {frames : Frames} {kernel after : HostedKernel}
  {latest : Option (Except Failure Answer)}

/-- The result of the latest call in a run that entered the module, or of one before the run. -/
def latestResult (kernel : HostedKernel) (earlier : Option (Except Failure Answer)) :
    List HostStep → Option (Except Failure Answer)
  | [] => earlier
  | step :: steps => latestResult (step.after kernel) ((step.result? kernel).or earlier) steps

/-- The host shows the diagnostic of a result, or none where there is no result. -/
def ShowsLatest (kernel : HostedKernel) : Option (Except Failure Answer) → Prop
  | some result => kernel.Shows result
  | none => kernel.lastAbort = none

theorem ShowsLatest.kept (shows : kernel.ShowsLatest latest)
    (same : after.lastAbort = kernel.lastAbort) : after.ShowsLatest latest := by
  cases latest with
  | some result => exact ⟨same.trans shows.diagnostic, fun failed => by
      rw [same]
      exact shows.failed failed⟩
  | none => exact same.trans shows

/-- The host shows no diagnostic exactly where no failure is the latest result. -/
theorem ShowsLatest.eq_none_iff (shows : kernel.ShowsLatest latest) :
    kernel.lastAbort = none ↔ ∀ failure, latest ≠ some (.error failure) := by
  cases latest with
  | none => exact ⟨fun _ _ => (nofun), fun _ => shows⟩
  | some result =>
    cases result with
    | ok answer => exact ⟨fun _ _ => (nofun), fun _ => shows.diagnostic⟩
    | error failure =>
      have shown := shows.failed rfl
      exact ⟨fun silent => by simp [silent] at shown, fun never => absurd rfl (never failure)⟩

/-- A step leaves the host with the diagnostic of the latest call that entered. -/
theorem step_shows (runs : kernel.Runs config frames) (small : frames.AreSmall)
    (shows : kernel.ShowsLatest latest) (step : HostStep) :
    (step.after kernel).ShowsLatest ((step.result? kernel).or latest) := by
  cases step with
  | seek position =>
    exact shows.kept
      ((show (HostStep.seek position).IsQuiet from trivial).lastAbort_after kernel)
  | getData length =>
    exact shows.kept
      ((show (HostStep.getData length).IsQuiet from trivial).lastAbort_after kernel)
  | putData data =>
    exact shows.kept
      ((show (HostStep.putData data).IsQuiet from trivial).lastAbort_after kernel)
  | perform operation =>
    cases entered : operation.entered? with
    | none =>
      simp only [HostStep.result?, entered, Option.bind_eq_bind, Option.bind_none, Option.none_or]
      exact shows.kept (HostStep.IsQuiet.lastAbort_after (by exact entered) kernel)
    | some pair =>
      obtain ⟨entry, arguments⟩ := pair
      have tells := operation_tells runs small entered
      simp only [HostStep.result?, entered, Option.bind_eq_bind, Option.bind_some]
      cases refusal : kernel.hostRefusal? entry arguments with
      | some failure => exact shows.kept (tells.refused failure refusal).2
      | none => exact tells.entered refusal

/-- After any run the host shows the diagnostic of the latest call that entered. -/
theorem afterAll_shows (runs : kernel.Runs config frames) (small : frames.AreSmall)
    (shows : kernel.ShowsLatest latest) (steps : List HostStep) :
    (kernel.afterAll steps).ShowsLatest (kernel.latestResult latest steps) := by
  induction steps generalizing kernel latest with
  | nil => exact shows
  | cons step steps hypothesis =>
    exact hypothesis (step_spec runs small step).1 (step_shows runs small shows step)

/-- Steps that call no entry point leave the diagnostic that is there. -/
theorem afterAll_quiet (kernel : HostedKernel) {steps : List HostStep}
    (quiet : ∀ step ∈ steps, step.IsQuiet) :
    (kernel.afterAll steps).lastAbort = kernel.lastAbort := by
  induction steps generalizing kernel with
  | nil => rfl
  | cons step steps hypothesis =>
    rw [afterAll, hypothesis _ fun other mem => quiet other (List.mem_cons_of_mem _ mem),
      (quiet step (List.mem_cons_self ..)).lastAbort_after kernel]

end HostedKernel

end TableKernels
