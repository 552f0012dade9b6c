import TableKernels.Hosted.Kernel
import TableKernels.Proofs.Compiled.Fibonacci
import TableKernels.Proofs.Compiled.Instance
import TableKernels.Proofs.Compiled.Sieve
import TableKernels.Proofs.Verdict

/-!
# Calls of the compiled module

A call of `fibonacci` or `sieve` ends as the verdict on its argument says, whatever memory holds and
however large it is: it returns and has not spoken to the host, or it reports one diagnostic and
traps. The other two entry points move a value into a global.
-/

namespace TableKernels

open Wasm Compiled

variable {α : Type} {frames : Frames} {store : Store HostState}

namespace Compiled

/-- How a call ends that was given a verdict; `word` is what an answer is in the module. -/
inductive Settles (entry : EntryPoint) (argument : Int64) (word : α → Word)
    (store : Store HostState) : Verdict α → CallResult HostState → Prop
  | refused (check : ArgumentCheck) : Settles entry argument word store (.refused check)
      (.trap .unreachable (aborted (argumentAbort entry check argument.toUInt64) store))
  | starved (bytes : ℕ) : Settles entry argument word store (.starved bytes)
      (.trap .unreachable (aborted (tableAbort entry.site bytes) store))
  | fixed (answer : α) :
      Settles entry argument word store (.fixed answer) (.done [word answer] store)
  | tabled (bytes : ℕ) (answer : α) (memory : Memory) (framed : Framed bytes store.memory memory)
      (fits : pagesForTable bytes ≤ store.memory.maxPages) :
      Settles entry argument word store (.tabled bytes answer)
        (.done [word answer] (onMemory store memory))

theorem refusal?_eq (entry : EntryPoint) (greatest : Int64)
    (bound : entry.domainMax? = some greatest.toInt) (argument : Int64) :
    refusal? greatest argument = domainFault? entry argument := by
  rw [refusal?_toInt, domainFault?, bound]

/-- There is room for a call from outside and for a call of `reserve` within it. -/
theorem Frames.AreSmall.enters (small : frames.AreSmall) {cells : ℕ}
    (few : cells ≤ cellBound) (results : ℕ) (one : results ≤ 1) :
    ∃ room inside, (Headroom.full results).enter? cells = some room ∧ 4 ≤ room.cells ∧
      room.enter? frames.reserve = some inside ∧ 4 ≤ inside.cells := by
  have reserve := small.reserve
  simp only [cellBound] at few reserve
  refine ⟨⟨1023, 131071 - results - cells⟩, ⟨1022, 131071 - results - cells - frames.reserve⟩,
    if_pos ?_, ?_, if_pos ?_, ?_⟩
  · change cells ≤ 131071 - results
    omega
  · change 4 ≤ 131071 - results - cells
    omega
  · change frames.reserve ≤ 131071 - results - cells
    omega
  · change 4 ≤ 131071 - results - cells - frames.reserve
    omega

/-- A call of `fibonacci` ends as its verdict says. -/
theorem invoke_fibonacci (store : Store HostState) (small : frames.AreSmall)
    (declared : Declared store.memory) (argument : Int64) :
    Settles .fibonacci argument (fun answer => .i64 answer.toUInt64) store
      (.fibonacci store.memory.maxPages argument)
      (frames.program.invoke fibonacciIndex [.i64 argument.toUInt64] store) := by
  obtain ⟨room, inside, entered, lent, enters, lent'⟩ :=
    small.enters small.fibonacci 1 (le_refl 1)
  have found : frames.program.routines[fibonacciIndex.toNat - frames.program.imports.size]? =
    some ⟨wordType, [.i64 0, .i32 0], Compiled.fibonacci.code, frames.fibonacci⟩ := rfl
  rw [Verdict.fibonacci]
  cases fault : domainFault? .fibonacci argument with
  | some check =>
    have refused := refusal?_eq .fibonacci fibonacciBound rfl argument
    rw [Program.invoke_eq_trap rfl found rfl entered
      (fibonacci_refused rfl lent (refused.trans fault)) (by decide)]
    exact .refused check
  | none =>
    obtain ⟨nonneg, le_max⟩ := (domainFault?_eq_none_iff rfl).mp fault
    -- The code is described for an argument that is a natural number.
    obtain ⟨n, same⟩ : ∃ n, n = argument.toInt.toNat := ⟨_, rfl⟩
    have le : n ≤ 2147483645 := by
      simp only [fibonacciMax] at le_max
      omega
    rw [toUInt64_of_nonneg nonneg, ← same]
    simp only [Verdict.ofTable]
    split
    · next fits =>
      obtain ⟨memory, locals', framed, ends⟩ := fibonacci_answers declared le enters fits
      rw [Program.invoke_eq_done _ _ _ rfl found rfl entered ends rfl
        (by simp only [stepBound]; omega)]
      exact .tabled _ _ memory framed fits
    · next exceeds =>
      rw [Program.invoke_eq_trap rfl found rfl entered
        (fibonacci_out_of_memory declared le enters lent' (Nat.lt_of_not_le exceeds)) (by decide)]
      exact .starved _

/-- A call of `sieve` whose table fits answers, and leaves the flags of the reference in memory. -/
theorem invoke_sieve_of_fits {limit : ℕ} (store : Store HostState) (small : frames.AreSmall)
    (declared : Declared store.memory) (le : 5 ≤ limit) (limit_le : limit ≤ 2147483646)
    (fits : pagesForTable (limit + 1) ≤ store.memory.maxPages) :
    ∃ flags memory,
      Table.sieveTable limit (Array.replicate (limit + 1) false) = .done flags ∧
      flags.size = limit + 1 ∧ Tabled store.memory flags memory ∧
      frames.program.invoke sieveIndex [.i64 (UInt64.ofNat limit)] store =
        .done [.i32 (UInt32.ofNat (Table.greatestPrime limit))] (onMemory store memory) := by
  obtain ⟨room, inside, entered, _, enters, _⟩ := small.enters small.sieve 1 (le_refl 1)
  have found : frames.program.routines[sieveIndex.toNat - frames.program.imports.size]? =
    some ⟨sieveType, List.replicate 7 (.i64 0), Compiled.sieve.code, frames.sieve⟩ := rfl
  obtain ⟨flags, memory, finished, size, tabled, ends⟩ :=
    sieve_answers declared le limit_le enters fits
  refine ⟨flags, memory, finished, size, tabled, ?_⟩
  exact Program.invoke_eq_done (600 + 5 * limit) [.i64 (UInt64.ofNat limit)] _ rfl found rfl
    entered ends rfl (by simp only [stepBound]; omega)

/-- A call of `sieve` ends as its verdict says. -/
theorem invoke_sieve (store : Store HostState) (small : frames.AreSmall)
    (declared : Declared store.memory) (argument : Int64) :
    Settles .sieve argument (fun answer => .i32 answer.toUInt32) store
      (.sieve store.memory.maxPages argument)
      (frames.program.invoke sieveIndex [.i64 argument.toUInt64] store) := by
  obtain ⟨room, inside, entered, lent, enters, lent'⟩ := small.enters small.sieve 1 (le_refl 1)
  have found : frames.program.routines[sieveIndex.toNat - frames.program.imports.size]? =
    some ⟨sieveType, List.replicate 7 (.i64 0), Compiled.sieve.code, frames.sieve⟩ := rfl
  rw [Verdict.sieve]
  cases fault : domainFault? .sieve argument with
  | some check =>
    have refused := refusal?_eq .sieve sieveBound rfl argument
    rw [Program.invoke_eq_trap rfl found rfl entered
      (sieve_refused rfl lent (refused.trans fault)) (by decide)]
    exact .refused check
  | none =>
    obtain ⟨nonneg, le_max⟩ := (domainFault?_eq_none_iff rfl).mp fault
    obtain ⟨limit, same⟩ : ∃ limit, limit = argument.toInt.toNat := ⟨_, rfl⟩
    have le : limit ≤ 2147483646 := by
      simp only [sieveMax] at le_max
      omega
    rw [toUInt64_of_nonneg nonneg, ← same]
    simp only [Verdict.ofTable]
    split
    · next lt =>
      rw [Program.invoke_eq_done _ _ _ rfl found rfl entered
        (sieve_fixed (Nat.le_of_lt_succ lt)) rfl (by decide)]
      exact .fixed _
    · next ge =>
      split
      · next fits =>
        obtain ⟨_, memory, _, size, tabled, answered⟩ :=
          invoke_sieve_of_fits store small declared (by omega) le fits
        rw [answered]
        exact .tabled _ _ memory (size ▸ tabled.framed) fits
      · next exceeds =>
        rw [Program.invoke_eq_trap rfl found rfl entered
          (sieve_out_of_memory declared (by omega) le enters lent' (Nat.lt_of_not_le exceeds))
          (by decide)]
        exact .starved _

/-- A kernel that computes a number, as a function of the compiled module. -/
structure NumericFunction (α : Type) extends Numeric α where
  /-- An answer as it crosses the boundary. -/
  scalar : α → Scalar
  /-- The answer among the words that a call leaves. -/
  read : List Word → α
  reads : ∀ answer, read [(scalar answer).word] = answer
  settles : ∀ {frames : Frames} (store : Store HostState), frames.AreSmall →
    Declared store.memory → ∀ argument, Settles entry argument (fun answer => (scalar answer).word)
      store (verdict store.memory.maxPages argument)
      (frames.program.invoke (entryIndex entry) [.i64 argument.toUInt64] store)

namespace NumericFunction

/-- The function behind `fibonacci`. -/
def fibonacci : NumericFunction Int64 where
  toNumeric := .fibonacci
  scalar := .i64
  read := HostedKernel.resultInt64
  reads _ := rfl
  settles := invoke_fibonacci

/-- The function behind `sieve`. -/
def sieve : NumericFunction Int32 where
  toNumeric := .sieve
  scalar := .i32
  read := HostedKernel.resultInt32
  reads _ := rfl
  settles := invoke_sieve

end NumericFunction

/-! ## Globals -/

/-- The store with another counter. -/
def withCounter (counter : Int64) (store : Store HostState) : Store HostState :=
  { store with globals := store.globals.setIfInBounds counterIndex.toNat (.i64 counter.toUInt64) }

/-- The store with another snapshot. -/
def withSnapshot (snapshot : Int64) (store : Store HostState) : Store HostState :=
  { store with
    globals := store.globals.setIfInBounds snapshotIndex.toNat (.i64 snapshot.toUInt64) }

/-- A call of `update_memory` takes the first word of memory as the snapshot. -/
theorem invoke_updateMemory (store : Store HostState) (small : frames.AreSmall)
    (declared : Declared store.memory) :
    frames.program.invoke updateMemoryIndex [] store =
      .done [] (withSnapshot (Memory.wordAt store.memory.bytes 0).toInt64 store) := by
  obtain ⟨room, _, entered, _⟩ := small.enters small.updateMemory 0 (by decide)
  have found : frames.program.routines[updateMemoryIndex.toNat - frames.program.imports.size]? =
    some ⟨plainType, [], Compiled.updateMemory.code, frames.updateMemory⟩ := rfl
  have inside : 0 + 8 ≤ store.memory.size := by
    have whole := declared.whole
    have pages_pos := declared.pages_pos
    simp only [pageSize] at whole
    omega
  have read : Load.i64.read store.memory 0 =
      some (.i64 (Memory.wordAt store.memory.bytes 0)) :=
    Load.read_i64 inside
  have load : Passes frames.program room 1 [.op (.i64Load (.first 3 0))] [.i32 0] #[] store
      [.i64 (Memory.wordAt store.memory.bytes 0)] #[] store := Passes.load read
  have base : Passes frames.program room 1 [const32 0] [] #[] store [.i32 0] #[] store :=
    Passes.of_straight rfl rfl
  have keep : Passes frames.program room 1 [.op (.globalSet snapshotIndex)]
      [.i64 (Memory.wordAt store.memory.bytes 0)] #[] store [] #[]
      (withSnapshot (Memory.wordAt store.memory.bytes 0).toInt64 store) :=
    Passes.op rfl
  have ends : Ends frames.program room 4 Compiled.updateMemory.code [] #[] store
      (.next [] #[] (withSnapshot (Memory.wordAt store.memory.bytes 0).toInt64 store)) :=
    (base.append (load.append keep)).ends
  exact Program.invoke_eq_done 4 [] [] rfl found rfl entered ends rfl (by decide)

/-- A call of `invoke_callback` replaces the counter by what the host makes of it. -/
theorem invoke_invokeCallback (store : Store HostState) (small : frames.AreSmall)
    {counter : Int64} (held : store.globals[counterIndex.toNat]? = some (.i64 counter.toUInt64)) :
    frames.program.invoke invokeCallbackIndex [] store =
      .done [] (withCounter (store.host.callCallback counter).1
        { store with host := (store.host.callCallback counter).2 }) := by
  obtain ⟨room, _, entered, lent, _⟩ :=
    small.enters small.invokeCallback 0 (by decide)
  have found : frames.program.routines[invokeCallbackIndex.toNat - frames.program.imports.size]? =
    some ⟨plainType, [], Compiled.invokeCallback.code, frames.invokeCallback⟩ := rfl
  have read : Passes frames.program room 1 [.op (.globalGet counterIndex)] [] #[] store
      [.i64 counter.toUInt64] #[] store := by
    refine Passes.op ?_
    simp only [Op.step, held]
  have called : Passes frames.program room 1 [.call callbackIndex] [.i64 counter.toUInt64] #[]
      store [.i64 (store.host.callCallback counter).1.toUInt64] #[]
      { store with host := (store.host.callCallback counter).2 } := by
    refine Passes.callImport [] HostState.callbackFunction
      [.i64 (store.host.callCallback counter).1.toUInt64] rfl rfl ?_ rfl
    exact decide_eq_true (le_trans (by decide : 1 ≤ 4) lent)
  have keep : Passes frames.program room 1 [.op (.globalSet counterIndex)]
      [.i64 (store.host.callCallback counter).1.toUInt64] #[]
      { store with host := (store.host.callCallback counter).2 } [] #[]
      (withCounter (store.host.callCallback counter).1
        { store with host := (store.host.callCallback counter).2 }) :=
    Passes.op rfl
  have ends : Ends frames.program room 4 Compiled.invokeCallback.code [] #[] store
      (.next [] #[] (withCounter (store.host.callCallback counter).1
        { store with host := (store.host.callCallback counter).2 })) :=
    (read.append (called.append keep)).ends
  exact Program.invoke_eq_done 4 [] [] rfl found rfl entered ends rfl (by decide)

end Compiled

end TableKernels
