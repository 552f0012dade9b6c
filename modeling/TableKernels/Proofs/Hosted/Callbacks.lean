import TableKernels.Proofs.Hosted.Moves

/-!
# Callbacks that panic while a module runs

Any module may hand numbers to the callback, at any entry point and as often as it likes. The host
catches each panic, gives the number back and lets the module go on. What it hears in between is
ordered: later states of a callback have heard more. A panic is recorded by the host exactly if the
callback answered one of the numbers that it heard since the call began with a panic.
-/

namespace TableKernels

open Wasm Compiled

/-! ## What a callback heard -/

namespace Callback

variable {first second third : Callback}

/-- The same callback, later. -/
structure Precedes (before after : Callback) : Prop where
  reply : after.reply = before.reply
  heard : before.heard <:+ after.heard

/-- The callback answered a number that it heard in between with a panic. -/
def PanickedSince (before after : Callback) : Prop :=
  ∃ earlier value payload, before.heard <:+ earlier ∧ (value :: earlier) <:+ after.heard ∧
    before.reply earlier value = .panic payload

theorem Precedes.refl (callback : Callback) : callback.Precedes callback :=
  ⟨rfl, List.suffix_refl _⟩

theorem Precedes.trans (before : first.Precedes second) (after : second.Precedes third) :
    first.Precedes third :=
  ⟨after.reply.trans before.reply, before.heard.trans after.heard⟩

theorem not_panickedSince_self (callback : Callback) : ¬ callback.PanickedSince callback := by
  rintro ⟨earlier, value, _, before, after, _⟩
  have shorter := before.length_le
  have longer := after.length_le
  rw [List.length_cons] at longer
  omega

/-- A panic between two states is one before or after any state in between. -/
theorem panickedSince_trans (before : first.Precedes second) (after : second.Precedes third) :
    first.PanickedSince third ↔ first.PanickedSince second ∨ second.PanickedSince third := by
  constructor
  · rintro ⟨earlier, value, payload, begun, ended, panic⟩
    rcases List.suffix_or_suffix_of_suffix ended after.heard with inside | outside
    · exact .inl ⟨earlier, value, payload, begun, inside, panic⟩
    · rcases List.suffix_cons_iff.mp outside with same | outside
      · exact .inl ⟨earlier, value, payload, begun, same ▸ List.suffix_refl _, panic⟩
      · exact .inr ⟨earlier, value, payload, outside, ended, before.reply ▸ panic⟩
  · rintro (⟨earlier, value, payload, begun, ended, panic⟩ |
      ⟨earlier, value, payload, begun, ended, panic⟩)
    · exact ⟨earlier, value, payload, begun, ended.trans after.heard, panic⟩
    · exact ⟨earlier, value, payload, before.heard.trans begun, ended, before.reply ▸ panic⟩

end Callback

/-! ## What a host hears -/

namespace HostState

variable {first second third : HostState}

/-- The bound callback answered a number that it heard in between with a panic. -/
def PanickedSince (before after : HostState) : Prop :=
  ∃ callback later, before.callback = some callback ∧ after.callback = some later ∧
    callback.PanickedSince later

/--
The host after some code ran: the callback is the same, later, and the record of a panic and the
diagnostic tell whether it panicked.
-/
structure Hears (before after : HostState) : Prop where
  callback : (before.callback = none ∧ after.callback = none) ∨
    ∃ callback later, before.callback = some callback ∧ after.callback = some later ∧
      callback.Precedes later
  recorded : after.callbackPanic.isSome = true ↔
    before.callbackPanic.isSome = true ∨ before.PanickedSince after
  shown : before.lastAbort.isSome = true ∨ before.PanickedSince after →
    after.lastAbort.isSome = true

theorem panickedSince_iff {callback later : Callback} (bound : first.callback = some callback)
    (kept : second.callback = some later) :
    first.PanickedSince second ↔ callback.PanickedSince later := by
  constructor
  · rintro ⟨_, _, same, same', panicked⟩
    cases bound.symm.trans same
    cases kept.symm.trans same'
    exact panicked
  · exact fun panicked => ⟨callback, later, bound, kept, panicked⟩

theorem not_panickedSince_of_eq (same : second.callback = first.callback) :
    ¬ first.PanickedSince second := by
  rintro ⟨callback, later, bound, kept, panicked⟩
  cases bound.symm.trans (same.symm.trans kept)
  exact callback.not_panickedSince_self panicked

/-- Hosts that differ in neither callback nor record have heard nothing in between. -/
theorem Hears.of_eq (same : second.callback = first.callback)
    (recorded : second.callbackPanic = first.callbackPanic)
    (shown : first.lastAbort.isSome = true → second.lastAbort.isSome = true) :
    first.Hears second := by
  have silent := not_panickedSince_of_eq same
  refine ⟨?_, ?_, fun before => shown (before.resolve_right silent)⟩
  · cases bound : first.callback with
    | none => exact .inl ⟨rfl, same.trans bound⟩
    | some callback =>
      exact .inr ⟨callback, callback, rfl, same.trans bound, .refl callback⟩
  · rw [recorded]
    exact ⟨.inl, fun either => either.resolve_right silent⟩

theorem Hears.panickedSince_trans (before : first.Hears second) (after : second.Hears third) :
    first.PanickedSince third ↔ first.PanickedSince second ∨ second.PanickedSince third := by
  rcases before.callback with ⟨unbound, unbound'⟩ | ⟨callback, later, bound, bound', precedes⟩
  · constructor
    · rintro ⟨_, _, bound, _⟩
      cases unbound.symm.trans bound
    · rintro (⟨_, _, bound, _⟩ | ⟨_, _, bound, _⟩)
      · cases unbound.symm.trans bound
      · cases unbound'.symm.trans bound
  · rcases after.callback with ⟨unbound, _⟩ | ⟨callback', last, same, bound'', precedes'⟩
    · cases bound'.symm.trans unbound
    · obtain rfl := Option.some.inj (bound'.symm.trans same)
      rw [panickedSince_iff bound bound'', panickedSince_iff bound bound',
        panickedSince_iff bound' bound'', Callback.panickedSince_trans precedes precedes']

theorem Hears.trans (before : first.Hears second) (after : second.Hears third) :
    first.Hears third := by
  have panicked := before.panickedSince_trans after
  refine ⟨?_, ?_, ?_⟩
  · rcases before.callback with ⟨unbound, unbound'⟩ | ⟨callback, later, bound, bound', precedes⟩
    · rcases after.callback with ⟨_, unbound''⟩ | ⟨_, _, bound, _⟩
      · exact .inl ⟨unbound, unbound''⟩
      · cases unbound'.symm.trans bound
    · rcases after.callback with ⟨unbound, _⟩ | ⟨callback', last, same, bound'', precedes'⟩
      · cases bound'.symm.trans unbound
      · obtain rfl := Option.some.inj (bound'.symm.trans same)
        exact .inr ⟨callback, last, bound, bound'', precedes.trans precedes'⟩
  · rw [after.recorded, before.recorded, panicked, or_assoc]
  · rw [panicked]
    rintro (shown | panicked | panicked)
    · exact after.shown (.inl (before.shown (.inl shown)))
    · exact after.shown (.inl (before.shown (.inr panicked)))
    · exact after.shown (.inr panicked)

end HostState

/-! ## What a call makes of a panic -/

namespace HostedKernel

variable {α β : Type} {kernel after : HostedKernel} {entry : EntryPoint}

/-- The callback panicked between two states of a kernel. -/
def PanickedIn (before after : HostedKernel) : Prop := before.host.PanickedSince after.host

/-- A call that succeeds leaves a record and a diagnostic exactly of a panic of the callback. -/
structure RecordsPanic (kernel : HostedKernel) (call : Except Failure α × HostedKernel) : Prop where
  recorded : call.1.isOk = true →
    (call.2.host.callbackPanic.isSome = true ↔ kernel.PanickedIn call.2)
  shown : call.1.isOk = true → kernel.PanickedIn call.2 → call.2.lastAbort.isSome = true

theorem RecordsPanic.map {call : Except Failure α × HostedKernel}
    (records : kernel.RecordsPanic call) (change : α → β) :
    kernel.RecordsPanic (call.map (·.map change) id) := by
  refine ⟨fun succeeded => records.recorded ?_, fun succeeded => records.shown ?_⟩
  all_goals rwa [Prod.map_fst, isOk_map] at succeeded

variable {config : Config} {frames : Frames}

end HostedKernel

end TableKernels
