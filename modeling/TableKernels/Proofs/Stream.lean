import TableKernels.Proofs.Hosted.Moves
import TableKernels.Proofs.Hosted.Start
import TableKernels.Proofs.Memory.Stream

/-!
# The memory stream of a hosted module

The host keeps a cursor for the memory that a module exports, while the module may grow that memory
and overwrite it in every call. Whatever module is hosted, its memory and the cursor are a byte
stream: each access does to them what it does to the stream, and answers the same; and whatever else
the host does, the cursor stays where it is and there are never fewer bytes.
-/

namespace TableKernels

open Wasm Compiled

/-! ## Accesses of a kernel -/

/-- What a kernel does if its memory is accessed. -/
def Access.perform (access : Access) (kernel : HostedKernel) :
    Except Failure StreamReply × HostedKernel :=
  match access with
  | .seek place => ((kernel.seek place).1.map fun _ => .done, (kernel.seek place).2)
  | .position => (.ok (.position kernel.position.toNat), kernel)
  | .getData count =>
    ((kernel.getData count).1.map (.bytes ·.toList), (kernel.getData count).2)
  | .putData data =>
    ((kernel.putData data.bytes).1.map fun _ => .done, (kernel.putData data.bytes).2)
  | .read offset count => ((kernel.read offset count).map (.bytes ·.toList), kernel)
  | .write offset data =>
    ((kernel.write offset data.bytes).1.map fun _ => .done, (kernel.write offset data.bytes).2)
  | .readInt64 offset => ((kernel.readInt64 offset).map .integer, kernel)
  | .writeInt64 offset value =>
    ((kernel.writeInt64 offset value).1.map fun _ => .done, (kernel.writeInt64 offset value).2)

/-- A kernel answers like a stream; where that names numbers, the kernel names equal words. -/
inductive Answers : Except Failure StreamReply → Except OutOfBounds StreamReply → Prop
  | ok (reply : StreamReply) : Answers (.ok reply) (.ok reply)
  | error {offset length size : UInt64} {fault : OutOfBounds} (start : offset.toNat = fault.offset)
    (count : length.toNat = fault.length) (whole : size.toNat = fault.size) :
    Answers (.error (.memoryOutOfBounds offset length size)) (.error fault)

theorem Answers.eq_ok {result : Except Failure StreamReply} {reply : StreamReply}
    (answers : Answers result (.ok reply)) : result = .ok reply := by
  cases answers
  rfl

namespace HostedKernel

variable {kernel after : HostedKernel} {stream : ByteStream}

/-- The memory and the cursor of a kernel are those of a stream. -/
structure HasStream (kernel : HostedKernel) (stream : ByteStream) : Prop where
  bytes : kernel.memoryBytes.toList = stream.bytes
  cursor : kernel.position.toNat = stream.cursor

theorem HasStream.size (has : kernel.HasStream stream) :
    kernel.memoryBytes.size = stream.bytes.length := by
  rw [← has.bytes, length_toList]

/-! ## Reading and writing -/

theorem write_of_fits (sized : kernel.IsSized) (has : kernel.HasStream stream) (offset : UInt64)
    {data : Payload} (fits : offset.toNat + data.bytes.length ≤ stream.bytes.length) :
    ∃ after, kernel.write offset data.bytes = (.ok (), after) ∧ after.host = kernel.host ∧
      after.memoryBytes.toList = splice stream.bytes offset.toNat data.bytes := by
  rw [← has.size] at fits
  rw [write_eq_ite sized offset data.short, if_pos fits, ← has.bytes]
  refine ⟨_, rfl, kernel.live.store.host_changeBytes _ _, ?_⟩
  have replaced := kernel.live.store.bytes_changeBytes kernel.surface.memory
    (overwrite · offset.toNat data.bytes) (overwrite_empty _ _)
  exact (congrArg ByteArray.toList replaced).trans (toList_overwrite fits)

theorem read_of_fits (sized : kernel.IsSized) (has : kernel.HasStream stream)
    {offset count : UInt64} (fits : offset.toNat + count.toNat ≤ stream.bytes.length) :
    ∃ data, kernel.read offset count = .ok data ∧
      data.toList = slice stream.bytes offset.toNat count.toNat := by
  rw [← has.size] at fits
  rw [read_eq sized, if_pos fits, ← has.bytes]
  exact ⟨_, rfl, toList_extract_add _ _ _⟩

/-! ## Accesses one by one -/

/-- An access does to a kernel what it does to the stream that the kernel has. -/
structure Serves (access : Access) (kernel : HostedKernel) (stream : ByteStream) : Prop where
  answers : Answers (access.perform kernel).1 (access.run stream).1
  has : (access.perform kernel).2.HasStream (access.run stream).2
  /-- An access that fails leaves the whole kernel as it was. -/
  kept : ∀ failure, (access.perform kernel).1 = .error failure →
    (access.perform kernel).2 = kernel

theorem serves_of_fits {access : Access} (fits : access.Fits stream)
    (performed : access.perform kernel = (.ok (access.answer stream), after))
    (bytes : after.memoryBytes.toList = splice stream.bytes (access.start stream) access.written)
    (cursor : after.position.toNat = access.cursor stream) : Serves access kernel stream := by
  obtain ⟨answer, bytes', cursor'⟩ := Access.run_of_fits fits
  refine ⟨?_, ⟨?_, ?_⟩, fun failure failed => ?_⟩
  · rw [performed, answer]
    exact .ok _
  · rw [performed, bytes', bytes]
  · rw [performed, cursor', cursor]
  · rw [performed] at failed
    cases failed

theorem serves_of_not_fits {access : Access} (has : kernel.HasStream stream)
    (sized : kernel.IsSized) (outside : ¬ access.Fits stream) (offset length : UInt64)
    (performed : access.perform kernel =
      (.error (.memoryOutOfBounds offset length kernel.memorySize), kernel))
    (start : offset.toNat = access.start stream) (count : length.toNat = access.length) :
    Serves access kernel stream := by
  have size : kernel.memorySize.toNat = stream.bytes.length :=
    sized.toNat_memorySize.trans has.size
  have failed := Access.run_of_not_fits outside
  refine ⟨?_, ?_, fun _ _ => by rw [performed]⟩
  · rw [performed, failed]
    exact .error start count size
  · rw [performed, failed]
    exact has

section Serves

variable (has : kernel.HasStream stream) (sized : kernel.IsSized)

include has sized

theorem serves_seek (place : UInt64) : Serves (.seek place) kernel stream := by
  have seeks := seek_eq sized place
  by_cases fits : (Access.seek place).Fits stream
  · have le : place.toNat ≤ kernel.memoryBytes.size := has.size ▸ fits
    have performed : (Access.seek place).perform kernel =
        (.ok .done, kernel.withPosition place) := by
      rw [Access.perform, seeks, if_pos le]
      rfl
    exact serves_of_fits fits performed (has.bytes.trans (splice_nil _ _).symm) rfl
  · have gt : ¬ place.toNat ≤ kernel.memoryBytes.size := has.size ▸ fits
    refine serves_of_not_fits has sized fits place 0 ?_ rfl rfl
    rw [Access.perform, seeks, if_neg gt]
    rfl

theorem read_of_not_fits {offset count : UInt64}
    (outside : ¬ offset.toNat + count.toNat ≤ stream.bytes.length) :
    kernel.read offset count = .error (.memoryOutOfBounds offset count kernel.memorySize) := by
  rw [← has.size] at outside
  rw [read_eq sized, if_neg outside]

theorem write_of_not_fits {offset : UInt64} {data : Payload}
    (outside : ¬ offset.toNat + data.bytes.length ≤ stream.bytes.length) :
    kernel.write offset data.bytes = (.error (.memoryOutOfBounds offset
      (UInt64.ofNat data.bytes.length) kernel.memorySize), kernel) := by
  rw [← has.size] at outside
  rw [write_eq_ite sized offset data.short, if_neg outside]

theorem serves_read (offset count : UInt64) : Serves (.read offset count) kernel stream := by
  by_cases fits : (Access.read offset count).Fits stream
  · obtain ⟨data, read, listed⟩ := read_of_fits sized has fits
    refine serves_of_fits fits ?_ (has.bytes.trans (splice_nil _ _).symm) has.cursor
    rw [Access.perform, Access.answer, read, ← listed]
    rfl
  · refine serves_of_not_fits has sized fits offset count ?_ rfl rfl
    rw [Access.perform, read_of_not_fits has sized fits]
    rfl

theorem serves_readInt64 (offset : UInt64) : Serves (.readInt64 offset) kernel stream := by
  by_cases fits : (Access.readInt64 offset).Fits stream
  · have within : offset.toNat + (8 : UInt64).toNat ≤ stream.bytes.length := fits
    obtain ⟨data, read, listed⟩ := read_of_fits sized has within
    refine serves_of_fits fits ?_ (has.bytes.trans (splice_nil _ _).symm) has.cursor
    change data.toList = slice stream.bytes offset.toNat 8 at listed
    rw [Access.perform, Access.answer, readInt64, read, ← listed]
    rfl
  · have outside : ¬ offset.toNat + (8 : UInt64).toNat ≤ stream.bytes.length := fits
    refine serves_of_not_fits has sized fits offset 8 ?_ rfl rfl
    rw [Access.perform, readInt64, read_of_not_fits has sized outside]
    rfl

theorem serves_getData (count : UInt64) : Serves (.getData count) kernel stream := by
  have size := has.size
  have small : kernel.memoryBytes.size < 0x10000000000000000 := sized
  by_cases fits : (Access.getData count).Fits stream
  · have within : kernel.position.toNat + count.toNat ≤ stream.bytes.length := by
      rw [has.cursor]
      exact fits
    obtain ⟨data, read, listed⟩ := read_of_fits sized has within
    have performed : (Access.getData count).perform kernel =
        (.ok ((Access.getData count).answer stream),
          kernel.withPosition (kernel.position + count)) := by
      rw [Access.perform, Access.answer, getData, read, ← has.cursor, ← listed]
      rfl
    refine serves_of_fits fits performed (has.bytes.trans (splice_nil _ _).symm) ?_
    change (kernel.position + count).toNat = stream.cursor + count.toNat
    -- The end of the range is within the memory, so the cursor does not wrap around.
    rw [UInt64.toNat_add, Nat.mod_eq_of_lt (by omega), has.cursor]
  · have outside : ¬ kernel.position.toNat + count.toNat ≤ stream.bytes.length := by
      rw [has.cursor]
      exact fits
    refine serves_of_not_fits has sized fits kernel.position count ?_ has.cursor rfl
    rw [Access.perform, getData, read_of_not_fits has sized outside]
    rfl

theorem serves_write (offset : UInt64) (data : Payload) :
    Serves (.write offset data) kernel stream := by
  by_cases fits : (Access.write offset data).Fits stream
  · obtain ⟨after, write, host, listed⟩ := write_of_fits sized has offset fits
    have performed : (Access.write offset data).perform kernel = (.ok .done, after) := by
      rw [Access.perform, write]
      rfl
    refine serves_of_fits fits performed listed ?_
    rw [position, host]
    exact has.cursor
  · refine serves_of_not_fits has sized fits offset (UInt64.ofNat data.bytes.length) ?_ rfl
      (toNat_ofNat64 data.short)
    rw [Access.perform, write_of_not_fits has sized fits]
    rfl

theorem serves_putData (data : Payload) : Serves (.putData data) kernel stream := by
  have size := has.size
  have small : kernel.memoryBytes.size < 0x10000000000000000 := sized
  have count := toNat_ofNat64 data.short
  by_cases fits : (Access.putData data).Fits stream
  · have within : kernel.position.toNat + data.bytes.length ≤ stream.bytes.length := by
      rw [has.cursor]
      exact fits
    obtain ⟨after, write, host, listed⟩ := write_of_fits sized has kernel.position within
    rw [has.cursor] at listed
    have performed : (Access.putData data).perform kernel = (.ok .done,
        after.withPosition (kernel.position + UInt64.ofNat data.bytes.length)) := by
      rw [Access.perform, putData, write]
      rfl
    refine serves_of_fits fits performed listed ?_
    change (kernel.position + UInt64.ofNat data.bytes.length).toNat =
      stream.cursor + data.bytes.length
    rw [UInt64.toNat_add, count, Nat.mod_eq_of_lt (by omega), has.cursor]
  · have outside : ¬ kernel.position.toNat + data.bytes.length ≤ stream.bytes.length := by
      rw [has.cursor]
      exact fits
    refine serves_of_not_fits has sized fits kernel.position (UInt64.ofNat data.bytes.length) ?_
      has.cursor count
    rw [Access.perform, putData, write_of_not_fits has sized outside]
    rfl

theorem serves_writeInt64 (offset : UInt64) (value : Int64) :
    Serves (.writeInt64 offset value) kernel stream := by
  have same := Access.run_writeInt64 stream offset value
  obtain ⟨answers, shown, kept⟩ := serves_write has sized offset (.ofInt64 value)
  rw [← same] at answers shown
  exact ⟨answers, shown, kept⟩

theorem HasStream.serves (access : Access) : Serves access kernel stream := by
  cases access with
  | seek place => exact serves_seek has sized place
  | position =>
    refine serves_of_fits stream.inside ?_ (has.bytes.trans (splice_nil _ _).symm) has.cursor
    rw [Access.perform, Access.answer, has.cursor]
  | getData count => exact serves_getData has sized count
  | putData data => exact serves_putData has sized data
  | read offset count => exact serves_read has sized offset count
  | write offset data => exact serves_write has sized offset data
  | readInt64 offset => exact serves_readInt64 has sized offset
  | writeInt64 offset value => exact serves_writeInt64 has sized offset value

end Serves

/-! ## Kernels whose memory is a stream -/

/-- Code reaches the host through its two functions, and the memory is one that a type describes. -/
structure IsStreamed (kernel : HostedKernel) : Prop where
  linked : kernel.IsLinked
  described : ∃ type : MemoryType,
    type.Describes (kernel.live.store.memoryAt kernel.surface.memory)

theorem IsStreamed.sized (streamed : kernel.IsStreamed) : kernel.IsSized := by
  obtain ⟨type, describes⟩ := streamed.described
  exact isSized_of_le describes.le_supply

theorem IsStreamed.of_moves (streamed : kernel.IsStreamed) (moves : Moves kernel after)
    (grows : kernel.live.store.Grows after.live.store) : after.IsStreamed := by
  have same := moves.sameCode
  obtain ⟨type, describes⟩ := streamed.described
  refine ⟨?_, type, ?_⟩
  · rw [IsLinked, same.program]
    exact streamed.linked
  · rw [same.surface]
    exact describes.becomes (grows _)

theorem Admits.isStreamed {bytes : Bytes} {config : Config} {program : Module}
    (admits : kernel.Admits bytes config program) : kernel.IsStreamed := by
  obtain ⟨type, _, describes⟩ := admits.exists_memory
  exact ⟨fun _ => admits.imports, type, describes⟩

theorem IsStreamed.access (streamed : kernel.IsStreamed) (access : Access) :
    (access.perform kernel).2.IsStreamed := by
  have host (step : HostStep) : (step.after kernel).IsStreamed :=
    streamed.of_moves (kernel.step_moves step).1 (kernel.step_moves step).2
  cases access with
  | position | read | readInt64 => exact streamed
  | seek place => exact host (.seek place)
  | getData count => exact host (.getData count)
  | putData data => exact host (.putData data.bytes)
  | write offset data => exact host (.perform (.write offset data.bytes))
  | writeInt64 offset value =>
    exact host (.perform (.write offset (Payload.ofInt64 value).bytes))

/-- Whatever is performed, the cursor stays where it is and there are never fewer bytes. -/
theorem IsStreamed.operation (streamed : kernel.IsStreamed) (operation : Operation) :
    (operation.run kernel).2.IsStreamed ∧ (operation.run kernel).2.position = kernel.position ∧
      kernel.memoryBytes.size ≤ (operation.run kernel).2.memoryBytes.size := by
  have steady := kernel.operation_steady operation
  have surface := steady.moves.sameCode.surface
  refine ⟨streamed.of_moves steady.moves steady.grows, (steady.position streamed.linked).1, ?_⟩
  rw [memoryBytes, memoryBytes, surface]
  exact (steady.grows _).size

theorem position_of_ofModule {bytes : Bytes} {config : Config}
    (hosted : ofModule bytes config = .ok kernel) : kernel.position = 0 := by
  obtain ⟨program, admits⟩ := admits_of_ofModule hosted
  obtain ⟨live, _, _, _, _, _, _, linked, _, rfl⟩ := exists_of_ofModule hosted
  obtain ⟨program', _, instantiated⟩ := Option.bind_eq_some_iff.mp linked
  exact Module.host_of_instantiate? instantiated
    (keeps_position fun _ imported => admits.imports imported)

/-- A kernel acts as a byte stream that has its memory and its cursor. -/
structure ActsAs (kernel : HostedKernel) (stream : ByteStream) : Prop where
  has : kernel.HasStream stream
  inside : kernel.position ≤ kernel.memorySize
  serves : ∀ access, Serves access kernel stream
  /-- An access succeeds exactly if its place and its length together are within the size. -/
  succeeds : ∀ access : Access, (access.perform kernel).1.isOk = true ↔
    access.start stream + access.length ≤ kernel.memoryBytes.size
  /-- Bytes out of the range of an access stay. -/
  elsewhere : ∀ (access : Access) (place : ℕ),
    place < access.start stream ∨ access.start stream + access.length ≤ place →
      byteIn (access.perform kernel).2.memoryBytes place = byteIn kernel.memoryBytes place
  /-- An integer that was written is read. -/
  rereads : ∀ offset value, (kernel.writeInt64 offset value).1 = .ok () →
    (kernel.writeInt64 offset value).2.readInt64 offset = .ok value
  /-- Nothing else that the host does moves the cursor. -/
  performs : ∀ operation : Operation, (operation.run kernel).2.position = kernel.position

/-- An access succeeds on a kernel exactly if it fits the stream. -/
theorem Serves.isOk_iff {access : Access} (serves : Serves access kernel stream) :
    (access.perform kernel).1.isOk = true ↔ access.Fits stream := by
  have answers := serves.answers
  by_cases fits : access.Fits stream
  · rw [(Access.run_of_fits fits).1] at answers
    exact iff_of_true (answers.eq_ok ▸ rfl) fits
  · rw [Access.run_of_not_fits fits] at answers
    refine iff_of_false ?_ fits
    generalize (access.perform kernel).1 = result at answers ⊢
    cases answers
    exact Bool.false_ne_true

theorem HasStream.actsAs (has : kernel.HasStream stream) (streamed : kernel.IsStreamed) :
    kernel.ActsAs stream := by
  have serves := has.serves streamed.sized
  refine ⟨has, ?_, serves, fun access => ?_, fun access place outside => ?_,
    fun offset value written => ?_, fun operation => (streamed.operation operation).2.1⟩
  · rw [UInt64.le_iff_toNat_le, streamed.sized.toNat_memorySize, has.size, has.cursor]
    exact stream.inside
  · rw [(serves access).isOk_iff, has.size, Access.Fits]
  · rw [byteIn_eq_getElem?, byteIn_eq_getElem?, (serves access).has.bytes, has.bytes,
      access.getElem?_run stream outside]
  · have fits : (Access.writeInt64 offset value).Fits stream := by
      rw [← (serves (.writeInt64 offset value)).isOk_iff, Access.perform, written]
      rfl
    -- The read is an access to the stream that the write left.
    have has' := (serves (.writeInt64 offset value)).has
    have reads := (has'.serves (streamed.access _).sized (.readInt64 offset)).answers
    rw [Access.readInt64_writeInt64 fits] at reads
    have answered : ((kernel.writeInt64 offset value).2.readInt64 offset).map .integer =
        .ok (StreamReply.integer value) := reads.eq_ok
    cases outcome : (kernel.writeInt64 offset value).2.readInt64 offset with
    | error failure =>
      rw [outcome] at answered
      cases answered
    | ok read =>
      rw [outcome] at answered
      cases answered
      rfl

end HostedKernel

/-! ## Runs -/

/-- What a host does: it accesses the memory, or performs an operation. -/
inductive StreamStep
  | access (access : Access)
  | perform (operation : Operation)

/-- What is seen of a step. -/
inductive StreamEvent
  | access (access : Access) (result : Except Failure StreamReply)
  | perform (operation : Operation)

/-- A step with what is seen of it and the kernel after it. -/
def StreamStep.run (kernel : HostedKernel) : StreamStep → StreamEvent × HostedKernel
  | .access use => (.access use (use.perform kernel).1, (use.perform kernel).2)
  | .perform operation => (.perform operation, (operation.run kernel).2)

/-- What is seen of some steps and the kernel after them. -/
def HostedKernel.follow (kernel : HostedKernel) : List StreamStep → List StreamEvent × HostedKernel
  | [] => ([], kernel)
  | step :: steps =>
    let (event, between) := step.run kernel
    let (events, after) := between.follow steps
    (event :: events, after)

/--
What is seen is what a stream does. Each access does what it does to a stream; any other operation
may put bytes in place of others and add some, but leaves the cursor.
-/
inductive ByteStream.Runs : ByteStream → List StreamEvent → ByteStream → Prop
  | nil (stream : ByteStream) : Runs stream [] stream
  | access {stream last : ByteStream} {access : Access} {result : Except Failure StreamReply}
    {events : List StreamEvent} (answers : Answers result (access.run stream).1)
    (rest : Runs (access.run stream).2 events last) :
      Runs stream (.access access result :: events) last
  | perform {stream grown last : ByteStream} {operation : Operation} {events : List StreamEvent}
    (cursor : grown.cursor = stream.cursor) (size : stream.bytes.length ≤ grown.bytes.length)
    (rest : Runs grown events last) : Runs stream (.perform operation :: events) last

namespace HostedKernel

variable {kernel : HostedKernel} {stream : ByteStream}

/-- The steps of a kernel are steps of the stream that it has. -/
theorem HasStream.follow (has : kernel.HasStream stream) (streamed : kernel.IsStreamed)
    (steps : List StreamStep) :
    ∃ last, stream.Runs (kernel.follow steps).1 last ∧ (kernel.follow steps).2.ActsAs last := by
  induction steps generalizing kernel stream with
  | nil => exact ⟨stream, .nil stream, has.actsAs streamed⟩
  | cons step steps hypothesis =>
    cases step with
    | access access =>
      have serves := has.serves streamed.sized access
      obtain ⟨last, runs, acts⟩ := hypothesis serves.has (streamed.access access)
      exact ⟨last, .access serves.answers runs, acts⟩
    | perform operation =>
      obtain ⟨streamed', position, size⟩ := streamed.operation operation
      have inside : (operation.run kernel).2.position.toNat ≤
          (operation.run kernel).2.memoryBytes.toList.length := by
        rw [position, length_toList, has.cursor]
        exact (stream.inside.trans_eq has.size.symm).trans size
      have has' : (operation.run kernel).2.HasStream ⟨_, _, inside⟩ := ⟨rfl, rfl⟩
      obtain ⟨last, runs, acts⟩ := hypothesis has' streamed'
      refine ⟨last, .perform ?_ ?_ runs, acts⟩
      · exact (congrArg UInt64.toNat position).trans has.cursor
      · rw [length_toList, ← has.size]
        exact size

end HostedKernel

/--
Whatever module is hosted and whatever the host did with it, its memory with the cursor is a byte
stream that began with the cursor at the start: what was seen so far is what the stream does, and
each access that follows does to the kernel what it does to the stream.
-/
theorem memory_acts_as_stream (bytes : Bytes) (config : Config) (kernel : HostedKernel)
    (hosted : HostedKernel.ofModule bytes config = .ok kernel) (steps : List StreamStep) :
    ∃ first last : ByteStream, kernel.HasStream first ∧ first.cursor = 0 ∧
      first.Runs (kernel.follow steps).1 last ∧ (kernel.follow steps).2.ActsAs last := by
  obtain ⟨program, admits⟩ := HostedKernel.admits_of_ofModule hosted
  have start := HostedKernel.position_of_ofModule hosted
  have has : kernel.HasStream ⟨kernel.memoryBytes.toList, 0, Nat.zero_le _⟩ :=
    ⟨rfl, congrArg UInt64.toNat start⟩
  obtain ⟨last, runs, acts⟩ := has.follow admits.isStreamed steps
  exact ⟨_, last, has, rfl, runs, acts⟩

/-- The default module is read and written like a stream around a call that grows its memory. -/
theorem memory_acts_as_stream_default : ∃ bytes kernel, compile .default = .ok bytes ∧
    HostedKernel.ofModule bytes .default = .ok kernel ∧
      ∃ first last : ByteStream, kernel.HasStream first ∧ first.cursor = 0 ∧
        first.Runs (kernel.follow [.access (.seek 65536), .perform (.sieve 100000),
          .access (.getData 8), .access (.writeInt64 18446744073709551615 1)]).1 last ∧
          (kernel.follow [.access (.seek 65536), .perform (.sieve 100000), .access (.getData 8),
            .access (.writeInt64 18446744073709551615 1)]).2.ActsAs last := by
  have valid : Config.default.IsValid := Config.validate_eq_ok.mp (by decide)
  obtain ⟨kernel, hosted⟩ := HostedKernel.exists_default
  exact ⟨_, kernel, compile_eq_ok.mpr ⟨valid, rfl⟩, hosted,
    memory_acts_as_stream _ .default kernel hosted _⟩

end TableKernels
