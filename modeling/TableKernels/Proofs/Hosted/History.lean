import TableKernels.Proofs.Hosted.Frame
import TableKernels.Proofs.Hosted.Size

/-!
# Histories of a hosted memory

A host may perform any operations in any order, and move the cursor of the memory stream between
them. Its module stays the one that was compiled, and the pages of its memory are those that the
module began with or those of the largest table that was built since.
-/

namespace TableKernels

open Wasm Compiled

variable {config : Config} {frames : Frames} {kernel : HostedKernel}

/-- A step of the host of a module: an operation, or a use of the cursor of the memory stream. -/
inductive HostStep
  | perform (operation : Operation)
  | seek (position : UInt64)
  | getData (length : UInt64)
  | putData (data : Bytes)

namespace HostStep

/-- The kernel after a step. -/
def after : HostStep → HostedKernel → HostedKernel
  | .perform operation, kernel => (operation.run kernel).2
  | .seek position, kernel => (kernel.seek position).2
  | .getData length, kernel => (kernel.getData length).2
  | .putData data, kernel => (kernel.putData data).2

/-- The table that a step builds, if it succeeds. -/
def built? (kernel : HostedKernel) : HostStep → Option ℕ
  | .perform operation => if (operation.run kernel).1.isOk then operation.table? else none
  | .seek _ | .getData _ | .putData _ => none

end HostStep

namespace HostedKernel

/-- The kernel after steps in a row. -/
def afterAll (kernel : HostedKernel) : List HostStep → HostedKernel
  | [] => kernel
  | step :: steps => afterAll (step.after kernel) steps

/-- The tables that a sequence of steps builds, in bytes. -/
def tables (kernel : HostedKernel) : List HostStep → List ℕ
  | [] => []
  | step :: steps => (step.built? kernel).toList ++ tables (step.after kernel) steps

/-- The pages that a memory has after some tables were built in it. -/
def pagesAfter (pages : ℕ) (tables : List ℕ) : ℕ := (tables.map pagesForTable).foldl max pages

theorem pagesAfter_append (pages : ℕ) (first second : List ℕ) :
    pagesAfter pages (first ++ second) = pagesAfter (pagesAfter pages first) second := by
  simp only [pagesAfter, List.map_append, List.foldl_append]

theorem Runs.withHost (runs : kernel.Runs config frames) (host : HostState) :
    (kernel.withHost host).Runs config frames :=
  ⟨runs.program, runs.surface, runs.globals, runs.declared, runs.maxPages⟩

theorem changeBytes_zero (store : Store HostState) (change : ByteArray → ByteArray) :
    store.changeBytes 0 change = onMemory store (store.memory.withBytes change) := by
  cases store
  rfl

/-- A host write replaces bytes of memory and nothing else. -/
theorem write_eq (runs : kernel.Runs config frames) (offset : UInt64) (data : Bytes) :
    kernel.write offset data =
      match kernel.checkStream offset (UInt64.ofNat data.length) with
      | .error failure => (.error failure, kernel)
      | .ok () => (.ok (), { kernel with live := { kernel.live with
          store := onMemory kernel.live.store
            (kernel.memory.withBytes fun bytes => overwrite bytes offset.toNat data) } }) := by
  have index : kernel.surface.memory = 0 := by
    rw [runs.surface]
    rfl
  have stored (change : ByteArray → ByteArray) :
      kernel.live.store.changeBytes kernel.surface.memory change =
        onMemory kernel.live.store (kernel.memory.withBytes change) := by
    rw [index]
    exact changeBytes_zero _ _
  unfold HostedKernel.write
  cases kernel.checkStream offset (UInt64.ofNat data.length) with
  | error failure => rfl
  | ok _ => simp only [stored]

/-- Other bytes of the same number keep a kernel running. -/
theorem Runs.withBytes (runs : kernel.Runs config frames) {change : ByteArray → ByteArray}
    (size : (change kernel.memory.bytes).size = kernel.memory.bytes.size) :
    Runs config frames { kernel with live := { kernel.live with
      store := onMemory kernel.live.store (kernel.memory.withBytes change) } } := by
  have pages : (kernel.memory.withBytes change).pages = kernel.memory.pages := by
    rw [Memory.pages, size_withBytes, size]
    rfl
  have declared := runs.declared
  refine ⟨runs.program, runs.surface, runs.globals, ⟨declared.narrow, ?_, ?_, ?_, ?_⟩,
    runs.maxPages⟩
  · change (kernel.memory.withBytes change).size = (kernel.memory.withBytes change).pages * _
    rw [pages, size_withBytes, size]
    exact declared.whole
  · exact pages ▸ declared.pages_pos
  · exact pages.trans_le declared.within
  · exact declared.ceiling

theorem write_runs (runs : kernel.Runs config frames) (offset : UInt64) (data : Bytes) :
    (kernel.write offset data).2.Runs config frames ∧
      (kernel.write offset data).2.memory.pages = kernel.memory.pages := by
  have size := size_overwrite data kernel.memory.bytes offset.toNat
  rw [write_eq runs]
  split
  · exact ⟨runs, rfl⟩
  · refine ⟨runs.withBytes size, ?_⟩
    change (kernel.memory.withBytes _).size / pageSize = _
    rw [size_withBytes, size]
    rfl

/-- What a call builds is what its memory grows by. -/
theorem CallEffect.pages {table? : Option ℕ} {isNumeric : Prop} {isOk : Bool}
    {after : HostedKernel} (runs : kernel.Runs config frames)
    (effect : CallEffect config frames table? isNumeric isOk kernel after) :
    after.memory.pages =
      pagesAfter kernel.memory.pages (if isOk then table? else none).toList := by
  cases isOk with
  | false => exact congrArg Memory.pages (effect.memory.untouched (.inr rfl))
  | true =>
    cases table? with
    | none => exact congrArg Memory.pages (effect.memory.untouched (.inl rfl))
    | some bytes => exact (effect.memory.built bytes rfl rfl).1.pages runs.declared

/-- Each step keeps a kernel running, and its memory grows by the table that the step builds. -/
theorem step_spec (runs : kernel.Runs config frames) (small : frames.AreSmall)
    (step : HostStep) :
    (step.after kernel).Runs config frames ∧
      (step.after kernel).memory.pages =
        pagesAfter kernel.memory.pages (step.built? kernel).toList := by
  cases step with
  | seek position =>
    simp only [HostStep.after, HostedKernel.seek]
    split
    · exact ⟨runs, rfl⟩
    · exact ⟨runs.withHost _, rfl⟩
  | getData length =>
    simp only [HostStep.after, HostedKernel.getData]
    split
    · exact ⟨runs, rfl⟩
    · exact ⟨runs.withHost _, rfl⟩
  | putData data =>
    obtain ⟨written, pages⟩ := write_runs runs kernel.position data
    simp only [HostStep.after, HostedKernel.putData]
    split
    · next same =>
      rw [same] at written pages
      exact ⟨written, pages⟩
    · next same =>
      rw [same] at written pages
      exact ⟨written.withHost _, pages⟩
  | perform operation =>
    by_cases call : operation.isCall = true
    · have effect := Operation.call_effect call runs small
      exact ⟨effect.runs, effect.pages runs⟩
    · cases operation with
      | fibonacci | sieve | updateMemory | invokeCallback | call => exact absurd rfl call
      | global name =>
        simp only [HostStep.after, HostStep.built?, Operation.table?, Operation.entered?,
          Option.bind_none, ite_self]
        exact ⟨runs, rfl⟩
      | bind callback =>
        exact ⟨runs.withHost _, rfl⟩
      | unbind =>
        exact ⟨runs.withHost _, rfl⟩
      | write offset data =>
        simp only [HostStep.built?, Operation.table?, Operation.entered?, Option.bind_none,
          ite_self]
        exact write_runs runs offset data

/-- The invariant of all histories. -/
theorem afterAll_spec (small : frames.AreSmall) (steps : List HostStep)
    (runs : kernel.Runs config frames) :
    (kernel.afterAll steps).Runs config frames ∧
      (kernel.afterAll steps).memory.pages =
        pagesAfter kernel.memory.pages (kernel.tables steps) := by
  induction steps generalizing kernel with
  | nil => exact ⟨runs, rfl⟩
  | cons step steps hypothesis =>
    obtain ⟨stepped, pages⟩ := step_spec runs small step
    obtain ⟨final, last⟩ := hypothesis stepped
    refine ⟨final, ?_⟩
    rw [tables, pagesAfter_append, ← pages]
    exact last

theorem Runs.memoryBytes (runs : kernel.Runs config frames) :
    kernel.memoryBytes = kernel.memory.bytes := by
  rw [HostedKernel.memoryBytes, runs.surface]
  rfl

theorem Runs.size_memoryBytes (runs : kernel.Runs config frames) :
    kernel.memoryBytes.size = kernel.memory.pages * pageSize := by
  rw [runs.memoryBytes]
  exact runs.declared.whole

theorem Runs.heapStart_le (runs : kernel.Runs config frames) :
    heapStart ≤ kernel.memory.bytes.size := by
  have whole : kernel.memory.bytes.size = _ := runs.declared.whole
  have pages_pos := runs.declared.pages_pos
  simp only [pageSize] at whole
  simp only [heapStart]
  omega

theorem Runs.checkStream_eq_ok (runs : kernel.Runs config frames) {offset : UInt64} {length : ℕ}
    (inside : offset.toNat + length ≤ kernel.memory.bytes.size) :
    kernel.checkStream offset (UInt64.ofNat length) = .ok () := by
  have size_lt : kernel.memory.bytes.size < 0x10000000000000000 := by
    have whole : kernel.memory.bytes.size = _ := runs.declared.whole
    have within := runs.declared.within
    have ceiling := runs.declared.ceiling
    simp only [pageSize, pageCeiling] at whole ceiling
    omega
  have sized : kernel.IsSized := by
    rw [IsSized, runs.memoryBytes]
    exact size_lt
  rw [checkStream_eq sized, toNat_ofNat64 (by omega), runs.memoryBytes, if_pos inside]

end HostedKernel

/-! ## Frames of calls -/

/-- A call that never builds a table. -/
def Operation.IsTableless (operation : Operation) : Prop :=
  ∃ entry arguments, operation.entered? = some (entry, arguments) ∧
    (entry = .updateMemory ∨ entry = .invokeCallback ∨
      entry = .sieve ∧ ∃ limit rest, arguments = limit :: rest ∧ limit.toInt ≤ 4)

theorem Operation.IsTableless.table?_eq {operation : Operation}
    (tableless : operation.IsTableless) : operation.table? = none := by
  obtain ⟨entry, arguments, entered, rfl | rfl | ⟨rfl, limit, rest, rfl, le⟩⟩ := tableless
  · rw [table?, entered]
    rfl
  · rw [table?, entered]
    rfl
  · rw [table?, entered]
    exact if_neg fun domain => absurd domain.1 (by omega)

/-- What a call leaves of a kernel. -/
structure HostedKernel.CallFrame (operation : Operation) (before : HostedKernel)
    (result : Except Failure Answer) (after : HostedKernel) : Prop where
  /-- The host's region is as it was. -/
  hostRegion : ∀ address, address < heapStart →
    byteIn after.memoryBytes address = byteIn before.memoryBytes address
  /-- What is not in the table of the call is as it was. -/
  outside : ∀ bytes, operation.table? = some bytes → ∀ address,
    address < heapStart ∨ heapStart + bytes ≤ address → address < before.memoryBytes.size →
      byteIn after.memoryBytes address = byteIn before.memoryBytes address
  /-- What was added and is not in the table of the call is zero. -/
  added : ∀ bytes, operation.table? = some bytes → ∀ address,
    before.memoryBytes.size ≤ address → address < heapStart ∨ heapStart + bytes ≤ address →
      byteIn after.memoryBytes address = 0
  /-- Without a table, or if the call fails, neither contents nor size have changed. -/
  untouched : operation.IsTableless ∨ result.isOk = false →
    after.memoryBytes = before.memoryBytes
  /-- Memory never shrinks. -/
  grows : before.memoryBytes.size ≤ after.memoryBytes.size
  /-- Computing a number leaves counter and snapshot alone. -/
  globals : operation.IsNumeric →
    after.counter = before.counter ∧ after.snapshot = before.snapshot

namespace HostedKernel

/-- A call that has the effect that its table allows leaves everything else alone. -/
theorem CallEffect.frame {operation : Operation} {result : Except Failure Answer}
    {after : HostedKernel} (runs : kernel.Runs config frames)
    (effect : CallEffect config frames operation.table? operation.IsNumeric result.isOk kernel
      after) :
    CallFrame operation kernel result after := by
  have untouched : operation.IsTableless ∨ result.isOk = false →
      after.memoryBytes = kernel.memoryBytes := by
    intro idle
    rw [effect.runs.memoryBytes, runs.memoryBytes]
    exact congrArg Memory.bytes (effect.memory.untouched (idle.imp_left (·.table?_eq)))
  have globals : operation.IsNumeric →
      after.counter = kernel.counter ∧ after.snapshot = kernel.snapshot :=
    fun numeric => ⟨(effect.kept numeric).counter, (effect.kept numeric).snapshot⟩
  obtain same | ⟨table, needed, framed⟩ := effect.memory.framed
  · have bytes : after.memoryBytes = kernel.memoryBytes := by
      rw [effect.runs.memoryBytes, runs.memoryBytes]
      exact congrArg Memory.bytes same
    refine ⟨fun _ _ => by rw [bytes], fun _ _ _ _ _ => by rw [bytes], ?_, untouched,
      by rw [bytes], globals⟩
    intro _ _ address beyond _
    rw [bytes, byteIn_eq_zero beyond]
  · have elsewhere := framed.outside
    rw [← effect.runs.memoryBytes, ← runs.memoryBytes] at elsewhere
    refine ⟨fun address lt => elsewhere address (.inl lt), ?_, ?_, untouched, ?_, globals⟩
    · intro bytes same address outside _
      cases needed.symm.trans same
      exact elsewhere address outside
    · intro bytes same address beyond outside
      cases needed.symm.trans same
      rw [elsewhere address outside, byteIn_eq_zero beyond]
    · rw [effect.runs.memoryBytes, runs.memoryBytes]
      exact (Nat.le_max_left _ _).trans_eq framed.size.symm

/--
After any steps of its host, the memory of a compiled module has the pages that it began with, or
those of the largest table that was built since, and never more than were declared. Every call
leaves the host's region, all bytes outside its table and, unless it builds one, all of memory as
they were.
-/
theorem memory_history (config hostConfig : Config) (bytes : Bytes) (kernel : HostedKernel)
    (compiled : compile config = .ok bytes)
    (hosted : HostedKernel.ofModule bytes hostConfig = .ok kernel) (steps : List HostStep) :
    (kernel.afterAll steps).memoryBytes.size =
        pagesAfter config.initialPages.toNat (kernel.tables steps) * pageSize ∧
      (kernel.afterAll steps).memoryBytes.size ≤ config.maxPages.toNat * pageSize ∧
      ∀ operation : Operation, operation.isCall = true →
        CallFrame operation (kernel.afterAll steps) (operation.run (kernel.afterAll steps)).1
          (operation.run (kernel.afterAll steps)).2 := by
  obtain ⟨valid, rfl⟩ := compile_eq_ok.mp compiled
  obtain ⟨frames, small, runs, fresh⟩ := ofModule_spec valid hosted
  obtain ⟨reached, pages⟩ := afterAll_spec small steps runs
  have first : kernel.memory.pages = config.initialPages.toNat := by
    rw [fresh.memory, Memory.pages, size_firstMemory, Nat.mul_div_cancel _ (by decide)]
  refine ⟨?_, ?_, fun operation call => (operation.call_effect call reached small).frame reached⟩
  · rw [reached.size_memoryBytes, pages, first]
  · rw [reached.size_memoryBytes]
    exact Nat.mul_le_mul_right _ (reached.declared.within.trans_eq reached.maxPages)

/-- The default module keeps its frame in a call that follows another. -/
theorem memory_history_default : ∃ bytes kernel, compile .default = .ok bytes ∧
    HostedKernel.ofModule bytes .default = .ok kernel ∧
      (Operation.fibonacci 5).isCall = true ∧
        CallFrame (.fibonacci 5) (kernel.afterAll [.perform (.sieve 10)])
          ((Operation.fibonacci 5).run (kernel.afterAll [.perform (.sieve 10)])).1
          ((Operation.fibonacci 5).run (kernel.afterAll [.perform (.sieve 10)])).2 := by
  have valid : Config.default.IsValid := Config.validate_eq_ok.mp (by decide)
  have compiled := compile_eq_ok.mpr ⟨valid, rfl⟩
  obtain ⟨kernel, hosted⟩ := HostedKernel.exists_default
  exact ⟨_, kernel, compiled, hosted, rfl,
    (memory_history .default .default _ kernel compiled hosted [.perform (.sieve 10)]).2.2
      (.fibonacci 5) rfl⟩

end HostedKernel

end TableKernels
