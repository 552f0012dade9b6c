import TableKernels.Proofs.Compiled.Independence

/-!
# Whether a table fits

A configuration, a budget and the compiled `reserve` each compute for themselves whether a table can
be had: in bytes, in pages, and by the pages that memory lacks. They decide alike about every table
that a kernel asks for, and when they refuse it they report the same diagnostic.
-/

namespace TableKernels

open Wasm Compiled

variable {config : Config} {frames : Frames} {live : LinkedModule} {entry : EntryPoint}
  {length width bytes : ℕ}

theorem Config.tableFits_eq_true :
    config.tableFits bytes = true ↔ pagesForTable bytes ≤ config.maxPages.toNat :=
  decide_eq_true_iff

theorem Config.le_maxTableBytes (valid : config.IsValid) :
    bytes ≤ config.maxTableBytes ↔ pagesForTable bytes ≤ config.maxPages.toNat := by
  have initial_pos := valid.initial_pos
  have initial_le := valid.initial_le
  rw [pagesForTable_le_iff, Config.maxTableBytes]
  simp only [heapStart, pageSize]
  omega

/-! ## Reserving from outside -/

/-- A call of `reserve` from outside. -/
def LinkedModule.reserve (live : LinkedModule) (bytes : ℕ) (site : Int32) : CallResult HostState :=
  live.program.invoke reserveIndex [.i64 (UInt64.ofNat bytes), .i32 site.toUInt32] live.store

namespace Compiled

variable {store : Store HostState} (site : Int32)

theorem reserve_found (frames : Frames) :
    frames.program.routines[reserveIndex.toNat - frames.program.imports.size]? =
      some ⟨reserveType, [.i64 0], Compiled.reserve.code, frames.reserve⟩ := rfl

theorem invoke_reserve_of_fits (small : frames.AreSmall) (declared : Declared store.memory)
    (short : bytes < 0x10000000000) (fits : pagesForTable bytes ≤ store.memory.maxPages) :
    frames.program.invoke reserveIndex [.i64 (UInt64.ofNat bytes), .i32 site.toUInt32] store =
      .done [] { store with memory := reserved bytes store.memory } := by
  obtain ⟨room, _, entered, _⟩ := small.enters small.reserve 0 (by decide)
  exact Program.invoke_eq_done 24 _ [] rfl (reserve_found frames) rfl entered
    (reserve_ends site declared short fits) rfl (by decide)

theorem invoke_reserve_of_exceeds (small : frames.AreSmall) (declared : Declared store.memory)
    (short : bytes < 0x10000000000) (exceeds : store.memory.maxPages < pagesForTable bytes) :
    frames.program.invoke reserveIndex [.i64 (UInt64.ofNat bytes), .i32 site.toUInt32] store =
      .trap .unreachable (aborted (tableAbort site bytes) store) := by
  obtain ⟨room, _, entered, lent, _⟩ := small.enters small.reserve 0 (by decide)
  exact Program.invoke_eq_trap rfl (reserve_found frames) rfl entered
    (reserve_trap site declared short lent exceeds) (by decide)

theorem tableAbort_eq (bytes : ℕ) : tableAbort site bytes = ⟨2, site, 0, Int32.ofNat bytes⟩ := by
  rw [tableAbort, UInt64.toUInt32_ofNat']
  rfl

end Compiled

namespace LinkedModule

/-- What `reserve` comes to in any state of an instance. -/
theorem reserve_eq (valid : config.IsValid) (small : frames.AreSmall)
    (state : IsStateOf config (instanceOf config frames) live) (site : Int32)
    (short : bytes < 0x10000000000) :
    live.reserve bytes site =
      if pagesForTable bytes ≤ config.maxPages.toNat then
        .done [] { live.store with memory := reserved bytes live.store.memory }
      else
        .trap .unreachable (aborted ⟨2, site, 0, Int32.ofNat bytes⟩ live.store) := by
  have declared := state.declared valid
  have program : live.program = frames.program := state.program
  have maxPages : live.store.memory.maxPages = config.maxPages.toNat :=
    state.maxPages.trans (maxPages_firstMemory valid)
  rw [LinkedModule.reserve, program, ← maxPages]
  split
  · next fits => exact invoke_reserve_of_fits site small declared short fits
  · next exceeds =>
    rw [← tableAbort_eq]
    exact invoke_reserve_of_exceeds site small declared short (Nat.lt_of_not_le exceeds)

end LinkedModule

/-- All that decide about a table agree, and they say the same when they refuse it. -/
structure DecideAlike (config : Config) (live : LinkedModule) (entry : EntryPoint)
    (length width : ℕ) : Prop where
  /-- The table fits for the configuration, for the budget and for `reserve`, or for none. -/
  agree : ∀ (α : Type) (zero : α) (site : Int32), List.TFAE [
    config.tableFits (length * width) = true,
    length * width ≤ config.maxTableBytes,
    (TableBudget.mk config.maxPages).table entry length width zero =
      .done (Array.replicate length zero),
    ∃ store, live.reserve (length * width) site = .done [] store]
  /-- What `reserve` leaves is the pages there were or those that the table needs. -/
  granted : config.tableFits (length * width) = true → ∀ site, ∃ store,
    live.reserve (length * width) site = .done [] store ∧ store.host = live.store.host ∧
      store.memory.size = max live.store.memory.pages (pagesForTable (length * width)) * pageSize
  /-- A refusal carries the code, the site and the low bits of the size. -/
  refused : config.tableFits (length * width) = false →
    (∀ (α : Type) (zero : α), ∃ message,
      (TableBudget.mk config.maxPages).table entry length width zero =
        .failed (.internalTrap
          ⟨some ⟨2, entry.site, 0, Int32.ofNat (length * width)⟩, message⟩)) ∧
    ∀ site, ∃ store, live.reserve (length * width) site = .trap .unreachable store ∧
      store.host = live.store.host.reportAbort ⟨2, site, 0, Int32.ofNat (length * width)⟩

theorem decideAlike (valid : config.IsValid) (small : frames.AreSmall)
    (state : LinkedModule.IsStateOf config (instanceOf config frames) live)
    (request : entry.AsksFor length width) : DecideAlike config live entry length width := by
  have supplied := request.small
  have short : length * width < 0x10000000000 := supplied.trans_lt (by decide)
  have reserve := fun site => LinkedModule.reserve_eq valid small state site short
  have refuses : ∀ (α : Type) (zero : α),
      ¬ pagesForTable (length * width) ≤ config.maxPages.toNat → ∃ message,
        (TableBudget.mk config.maxPages).table entry length width zero =
          .failed (TableBudget.outOfMemory entry (length * width) message) := by
    intro α zero exceeds
    exact TableBudget.table_eq_failed _ length width entry zero supplied
      (Nat.lt_of_not_le exceeds)
  refine ⟨?_, ?_, ?_⟩
  · intro α zero site
    -- Each of the four compares the pages of the table with those that are declared.
    have budget : (TableBudget.mk config.maxPages).table entry length width zero =
        .done (Array.replicate length zero) ↔
          pagesForTable (length * width) ≤ config.maxPages.toNat := by
      refine ⟨fun had => ?_,
        TableBudget.table_eq_done ⟨config.maxPages⟩ length width entry zero supplied⟩
      by_contra exceeds
      obtain ⟨message, failed⟩ := refuses α zero exceeds
      cases had.symm.trans failed
    have reserves : (∃ store, live.reserve (length * width) site = .done [] store) ↔
        pagesForTable (length * width) ≤ config.maxPages.toNat := by
      rw [reserve]
      split
      · next fits => exact iff_of_true ⟨_, rfl⟩ fits
      · next exceeds => exact iff_of_false (fun had => nomatch had) exceeds
    rw [budget, reserves, Config.tableFits_eq_true, Config.le_maxTableBytes valid]
    tfae_finish
  · intro fits site
    rw [reserve, if_pos (Config.tableFits_eq_true.mp fits)]
    have declared := state.declared valid
    refine ⟨_, rfl, rfl, ?_⟩
    have framed : Framed (length * width) live.store.memory _ := Framed.reserved declared
    rw [framed.size, declared.whole, Nat.mul_max_mul_right]
  · intro exceeds
    have exceeds : ¬ pagesForTable (length * width) ≤ config.maxPages.toNat := by
      rw [← Config.tableFits_eq_true, exceeds]
      exact Bool.false_ne_true
    refine ⟨fun α zero => refuses α zero exceeds, fun site => ?_⟩
    rw [reserve, if_neg exceeds]
    exact ⟨_, rfl, rfl⟩

/--
For a valid configuration, every table that a kernel asks for and every state of the compiled
instance, whatever admitted number of pages its memory has, all decide alike.
-/
theorem table_fit_agrees (config : Config) (valid : config.validate = .ok ()) :
    ∃ bytes fresh, compile config = .ok bytes ∧ LinkedModule.ofModule? bytes = some fresh ∧
      LinkedModule.IsStateOf config fresh fresh ∧
      ∀ live, LinkedModule.IsStateOf config fresh live →
        ∀ entry length width, EntryPoint.AsksFor entry length width →
          DecideAlike config live entry length width := by
  have isValid := Config.validate_eq_ok.mp valid
  obtain ⟨bytes, frames, small, compiled, linked, fresh⟩ := LinkedModule.exists_fresh isValid
  refine ⟨bytes, instanceOf config frames, compiled, linked, fresh, ?_⟩
  intro live state entry length width request
  exact decideAlike isValid small state request

/--
Under the default limits the greatest flags that fit take all 2048 pages, and the words of the
greatest `fibonacci` do not fit: of their 17179869176 bytes the low bits are reported as -8.
-/
theorem table_fit_agrees_default : Config.default.validate = .ok () ∧
    ∃ bytes fresh, compile .default = .ok bytes ∧ LinkedModule.ofModule? bytes = some fresh ∧
      LinkedModule.IsStateOf .default fresh fresh ∧
      EntryPoint.AsksFor .sieve 134152192 1 ∧ EntryPoint.AsksFor .fibonacci 2147483647 8 ∧
      (∃ store, fresh.reserve (134152192 * 1) EntryPoint.sieve.site = .done [] store ∧
        store.memory.size = max fresh.store.memory.pages 2048 * 65536) ∧
      ∃ store, fresh.reserve (2147483647 * 8) EntryPoint.fibonacci.site =
          .trap .unreachable store ∧
        store.host.lastAbort = some ⟨2, EntryPoint.fibonacci.site, 0, -8⟩ := by
  have valid : Config.default.validate = .ok () := by decide
  obtain ⟨bytes, fresh, compiled, linked, state, alike⟩ := table_fit_agrees .default valid
  have flags : EntryPoint.AsksFor .sieve 134152192 1 := .sieve 134152191 (by decide) (by decide)
  have words : EntryPoint.AsksFor .fibonacci 2147483647 8 := .fibonacci 2147483645 (by decide)
  obtain ⟨store, returned, _, size⟩ :=
    (alike fresh state _ _ _ flags).granted (by decide) EntryPoint.sieve.site
  obtain ⟨trapped, reported, host⟩ :=
    ((alike fresh state _ _ _ words).refused (by decide)).2 EntryPoint.fibonacci.site
  refine ⟨valid, bytes, fresh, compiled, linked, state, flags, words, ⟨store, returned, size⟩,
    trapped, reported, ?_⟩
  rw [host]
  rfl

end TableKernels
