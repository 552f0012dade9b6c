import TableKernels.Proofs.Stream

/-!
# Random access to two memories

The registry reads and writes a buffer of its own, and the host of a module the memory that the
module exports. Both take an offset and a length and check them each in its own way. Whenever the
two hold the same bytes, they give the same answers, word for word, and go on holding the same
bytes: an access succeeds exactly if its range, added up without wrapping, lies within the size; a
write replaces the bytes of its range and no others; and a refused access changes nothing.
-/

namespace TableKernels

open Wasm

/-- The refusal of a range that does not lie within a buffer. -/
def outOfBounds (bytes : ByteArray) (offset length : UInt64) : Failure :=
  .memoryOutOfBounds offset length (UInt64.ofNat bytes.size)

/-- What a range holds after some bytes of a buffer were replaced. -/
structure ShowsReplaced (bytes : ByteArray) (start : ℕ) (data : Bytes) (offset length : UInt64)
    (read : ByteArray) : Prop where
  size : read.size = length.toNat
  written : ∀ place < length.toNat, start ≤ offset.toNat + place →
    offset.toNat + place < start + data.length →
      byteIn read place = data.getD (offset.toNat + place - start) 0
  kept : ∀ place < length.toNat, offset.toNat + place < start ∨
    start + data.length ≤ offset.toNat + place →
      byteIn read place = byteIn bytes (offset.toNat + place)

section Buffer

variable {bytes : ByteArray}

theorem size_range {offset length : ℕ} (fits : offset + length ≤ bytes.size) :
    (bytes.extract offset (offset + length)).size = length := by
  rw [ByteArray.size_extract, Nat.min_eq_left fits, Nat.add_sub_cancel_left]

theorem byteIn_range {offset length place : ℕ} (inside : place < length)
    (fits : offset + length ≤ bytes.size) :
    byteIn (bytes.extract offset (offset + length)) place = byteIn bytes (offset + place) := by
  rw [byteIn_eq ((size_range fits).symm ▸ inside), byteIn_eq (by omega : offset + place < _),
    ByteArray.getElem_extract]

theorem showsReplaced_overwrite {start : ℕ} {data : Bytes} {offset length : UInt64}
    (replaced : start + data.length ≤ bytes.size)
    (fits : offset.toNat + length.toNat ≤ bytes.size) :
    ShowsReplaced bytes start data offset length
      ((overwrite bytes start data).extract offset.toNat (offset.toNat + length.toNat)) := by
  have size := size_overwrite data bytes start
  have byte {place : ℕ} (inside : place < length.toNat) :=
    (byteIn_range inside (size.symm ▸ fits)).trans
      (byteIn_overwrite data bytes start replaced (offset.toNat + place))
  refine ⟨size_range (size.symm ▸ fits), fun place inside lower upper => ?_,
    fun place inside outside => ?_⟩
  · rw [byte inside, if_pos ⟨lower, upper⟩]
  · rw [byte inside, if_neg (by omega)]

end Buffer

/-! ## The two memories -/

namespace LinearMemory

variable {memory : LinearMemory}

theorem read_eq (memory : LinearMemory) (offset length : UInt64) :
    memory.read offset length =
      if offset.toNat + length.toNat ≤ memory.size then
        .ok (memory.bytes.extract offset.toNat (offset.toNat + length.toNat))
      else .error (outOfBounds memory.bytes offset length) := by
  rw [read, checkRange]
  split <;> rfl

theorem write_eq (memory : LinearMemory) (offset : UInt64) (data : Payload) :
    memory.write offset data.bytes =
      if offset.toNat + data.bytes.length ≤ memory.size then
        .ok ⟨overwrite memory.bytes offset.toNat data.bytes⟩
      else .error (outOfBounds memory.bytes offset (UInt64.ofNat data.bytes.length)) := by
  rw [write, checkRange, toNat_ofNat64 data.short]
  split <;> rfl

end LinearMemory

/-- A range that is read, or bytes that are written from an offset on. -/
inductive RandomAccess
  | read (offset length : UInt64)
  | write (offset : UInt64) (data : Payload)

namespace RandomAccess

/-- What an access of a buffer gives back, and the buffer after it. -/
def onMemory (memory : LinearMemory) : RandomAccess → Except Failure ByteArray × LinearMemory
  | read offset length => (memory.read offset length, memory)
  | write offset data =>
    match memory.write offset data.bytes with
    | .ok after => (.ok .empty, after)
    | .error failure => (.error failure, memory)

/-- What an access of the memory of a module gives back, and the host after it. -/
def onKernel (kernel : HostedKernel) : RandomAccess → Except Failure ByteArray × HostedKernel
  | read offset length => (kernel.read offset length, kernel)
  | write offset data =>
    ((kernel.write offset data.bytes).1.map fun _ => .empty, (kernel.write offset data.bytes).2)

/-- What accesses of a buffer give back one after another, and the buffer after them. -/
def allOnMemory (memory : LinearMemory) :
    List RandomAccess → List (Except Failure ByteArray) × LinearMemory
  | [] => ([], memory)
  | access :: others =>
    let (answer, between) := access.onMemory memory
    let (answers, after) := allOnMemory between others
    (answer :: answers, after)

/-- What accesses of the memory of a module give back, and the host after them. -/
def allOnKernel (kernel : HostedKernel) :
    List RandomAccess → List (Except Failure ByteArray) × HostedKernel
  | [] => ([], kernel)
  | access :: others =>
    let (answer, between) := access.onKernel kernel
    let (answers, after) := allOnKernel between others
    (answer :: answers, after)

end RandomAccess

namespace HostedKernel

variable {kernel : HostedKernel} {memory : LinearMemory}

theorem write_memoryBytes (sized : kernel.IsSized) {offset : UInt64} {data : Payload}
    (fits : offset.toNat + data.bytes.length ≤ kernel.memoryBytes.size) :
    ∃ after, kernel.write offset data.bytes = (.ok (), after) ∧
      after.memoryBytes = overwrite kernel.memoryBytes offset.toNat data.bytes := by
  rw [write_eq_ite sized offset data.short, if_pos fits]
  exact ⟨_, rfl, kernel.live.store.bytes_changeBytes kernel.surface.memory
    (overwrite · offset.toNat data.bytes) (overwrite_empty _ _)⟩

/-- A buffer and the memory of a module that hold the same bytes are accessed alike. -/
structure AccessedAlike (memory : LinearMemory) (kernel : HostedKernel) : Prop where
  /-- The size that a refusal names is the size. -/
  size : (UInt64.ofNat memory.bytes.size).toNat = memory.size
  read_inside : ∀ offset length : UInt64, offset.toNat + length.toNat ≤ memory.size →
    ∃ data, memory.read offset length = .ok data ∧ kernel.read offset length = .ok data ∧
      data.size = length.toNat ∧ ∀ place < length.toNat,
        byteIn data place = byteIn memory.bytes (offset.toNat + place)
  read_outside : ∀ offset length : UInt64, ¬ offset.toNat + length.toNat ≤ memory.size →
    memory.read offset length = .error (outOfBounds memory.bytes offset length) ∧
      kernel.read offset length = .error (outOfBounds memory.bytes offset length)
  /-- What was written is read wherever a later read reaches it, and the old bytes elsewhere. -/
  write_inside : ∀ (offset : UInt64) (data : Payload),
    offset.toNat + data.bytes.length ≤ memory.size →
      ∃ after written, memory.write offset data.bytes = .ok after ∧
        kernel.write offset data.bytes = (.ok (), written) ∧
        after.bytes = written.memoryBytes ∧ after.size = memory.size ∧
        ∀ offset' length' : UInt64, offset'.toNat + length'.toNat ≤ memory.size →
          ∃ read, after.read offset' length' = .ok read ∧
            written.read offset' length' = .ok read ∧
            ShowsReplaced memory.bytes offset.toNat data.bytes offset' length' read
  write_outside : ∀ (offset : UInt64) (data : Payload),
    ¬ offset.toNat + data.bytes.length ≤ memory.size →
      memory.write offset data.bytes =
          .error (outOfBounds memory.bytes offset (UInt64.ofNat data.bytes.length)) ∧
        kernel.write offset data.bytes =
          (.error (outOfBounds memory.bytes offset (UInt64.ofNat data.bytes.length)), kernel)

theorem read_eq_read (sized : kernel.IsSized) (same : memory.bytes = kernel.memoryBytes)
    (offset length : UInt64) : memory.read offset length = kernel.read offset length := by
  rw [memory.read_eq, HostedKernel.read_eq sized, LinearMemory.size, outOfBounds, same,
    memorySize]

theorem accessedAlike (sized : kernel.IsSized) (same : memory.bytes = kernel.memoryBytes) :
    AccessedAlike memory kernel := by
  have size : memory.size = kernel.memoryBytes.size := congrArg ByteArray.size same
  have reads := read_eq_read sized same
  refine ⟨toNat_ofNat64 (same ▸ sized), fun offset length fits => ?_,
    fun offset length outside => ?_, fun offset data fits => ?_, fun offset data outside => ?_⟩
  · have read := memory.read_eq offset length
    rw [if_pos fits] at read
    exact ⟨_, read, (reads offset length).symm.trans read, size_range fits,
      fun place inside => byteIn_range inside fits⟩
  · have read := memory.read_eq offset length
    rw [if_neg outside] at read
    exact ⟨read, (reads offset length).symm.trans read⟩
  · obtain ⟨written, write, bytes⟩ := write_memoryBytes sized (size ▸ fits)
    have replaced := memory.write_eq offset data
    rw [if_pos fits] at replaced
    have length : LinearMemory.size ⟨overwrite memory.bytes offset.toNat data.bytes⟩ =
        memory.size := size_overwrite data.bytes memory.bytes offset.toNat
    -- Both hold the same bytes again, so a later read is compared as one before the write was.
    have same' : (LinearMemory.mk (overwrite memory.bytes offset.toNat data.bytes)).bytes =
        written.memoryBytes := by
      rw [bytes, same]
    have sized' : written.IsSized := by
      rw [IsSized, bytes, size_overwrite]
      exact sized
    refine ⟨_, written, replaced, write, same', length, fun offset' length' fits' => ?_⟩
    have read := LinearMemory.read_eq ⟨overwrite memory.bytes offset.toNat data.bytes⟩
      offset' length'
    rw [if_pos (fits'.trans_eq length.symm)] at read
    exact ⟨_, read, (read_eq_read sized' same' offset' length').symm.trans read,
      showsReplaced_overwrite fits fits'⟩
  · have write := memory.write_eq offset data
    rw [if_neg outside] at write
    refine ⟨write, ?_⟩
    rw [write_eq_ite sized offset data.short, if_neg (size ▸ outside), outOfBounds, same,
      memorySize]

/-! ## Accesses in a row -/

/-- An access gives the same answer, and the same bytes are held after it. -/
theorem AccessedAlike.access (alike : AccessedAlike memory kernel)
    (same : memory.bytes = kernel.memoryBytes) (access : RandomAccess) :
    (access.onMemory memory).1 = (access.onKernel kernel).1 ∧
      (access.onMemory memory).2.bytes = (access.onKernel kernel).2.memoryBytes := by
  cases access with
  | read offset length =>
    refine ⟨?_, same⟩
    by_cases fits : offset.toNat + length.toNat ≤ memory.size
    · obtain ⟨data, read, read', _⟩ := alike.read_inside offset length fits
      exact read.trans read'.symm
    · obtain ⟨read, read'⟩ := alike.read_outside offset length fits
      exact read.trans read'.symm
  | write offset data =>
    by_cases fits : offset.toNat + data.bytes.length ≤ memory.size
    · obtain ⟨after, written, write, write', bytes, _⟩ := alike.write_inside offset data fits
      rw [RandomAccess.onMemory, RandomAccess.onKernel, write, write']
      exact ⟨rfl, bytes⟩
    · obtain ⟨write, write'⟩ := alike.write_outside offset data fits
      rw [RandomAccess.onMemory, RandomAccess.onKernel, write, write']
      exact ⟨rfl, same⟩

/-- An access leaves the memory as large as it was. -/
theorem IsSized.access (sized : kernel.IsSized) (access : RandomAccess) :
    (access.onKernel kernel).2.IsSized := by
  cases access with
  | read offset length => exact sized
  | write offset data =>
    by_cases fits : offset.toNat + data.bytes.length ≤ kernel.memoryBytes.size
    · obtain ⟨after, write, bytes⟩ := write_memoryBytes sized fits
      rw [RandomAccess.onKernel, write, IsSized, bytes, size_overwrite]
      exact sized
    · rw [RandomAccess.onKernel, write_eq_ite sized offset data.short, if_neg fits]
      exact sized

theorem accesses_alike (accesses : List RandomAccess) (sized : kernel.IsSized)
    (same : memory.bytes = kernel.memoryBytes) :
    (RandomAccess.allOnMemory memory accesses).1 = (RandomAccess.allOnKernel kernel accesses).1 ∧
      (RandomAccess.allOnMemory memory accesses).2.bytes =
        (RandomAccess.allOnKernel kernel accesses).2.memoryBytes := by
  induction accesses generalizing memory kernel with
  | nil => exact ⟨rfl, same⟩
  | cons access others hypothesis =>
    obtain ⟨answer, between⟩ := (accessedAlike sized same).access same access
    obtain ⟨answers, after⟩ := hypothesis (sized.access access) between
    exact ⟨congrArg₂ List.cons answer answers, after⟩

/-- Whatever the host does, code reaches it through its two functions only. -/
theorem IsStreamed.follow (streamed : kernel.IsStreamed) (steps : List StreamStep) :
    (kernel.follow steps).2.IsStreamed := by
  induction steps generalizing kernel with
  | nil => exact streamed
  | cons step steps hypothesis =>
    cases step with
    | access access => exact hypothesis (streamed.access access)
    | perform operation => exact hypothesis (streamed.operation operation).1

end HostedKernel

/--
Whatever module is hosted and whatever the host did with it, a buffer that holds the same bytes is
accessed as the memory of the module is: one access after another gives the same answer and leaves
the same bytes, and each succeeds exactly if its range lies within the size.
-/
theorem memories_accessed_alike (bytes : Bytes) (config : Config) (fresh : HostedKernel)
    (hosted : HostedKernel.ofModule bytes config = .ok fresh) (steps : List StreamStep)
    (memory : LinearMemory) (same : memory.bytes = (fresh.follow steps).2.memoryBytes) :
    HostedKernel.AccessedAlike memory (fresh.follow steps).2 ∧
      ∀ accesses : List RandomAccess,
        (RandomAccess.allOnMemory memory accesses).1 =
            (RandomAccess.allOnKernel (fresh.follow steps).2 accesses).1 ∧
          (RandomAccess.allOnMemory memory accesses).2.bytes =
            (RandomAccess.allOnKernel (fresh.follow steps).2 accesses).2.memoryBytes := by
  obtain ⟨program, admits⟩ := HostedKernel.admits_of_ofModule hosted
  have sized := (admits.isStreamed.follow steps).sized
  exact ⟨HostedKernel.accessedAlike sized same,
    fun accesses => HostedKernel.accesses_alike accesses sized same⟩

/-- A buffer and the memory of the default module, after a call that grows it, at the last word. -/
theorem memories_accessed_alike_default : ∃ fresh memory,
    HostedKernel.ofModule (Compiled.kernelModule .default).encode .default = .ok fresh ∧
      memory.bytes = (fresh.follow [.perform (.sieve 100000)]).2.memoryBytes ∧
      (RandomAccess.allOnMemory memory [.write 18446744073709551615 (.ofInt64 7),
        .write 16 (.ofInt64 7), .read 12 8]).1 =
          (RandomAccess.allOnKernel (fresh.follow [.perform (.sieve 100000)]).2
            [.write 18446744073709551615 (.ofInt64 7), .write 16 (.ofInt64 7), .read 12 8]).1 := by
  obtain ⟨fresh, hosted⟩ := HostedKernel.exists_default
  refine ⟨fresh, ⟨(fresh.follow [.perform (.sieve 100000)]).2.memoryBytes⟩, hosted, rfl, ?_⟩
  exact ((memories_accessed_alike _ .default fresh hosted _ _ rfl).2 _).1

end TableKernels
