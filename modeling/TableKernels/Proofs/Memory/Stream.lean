import TableKernels.Proofs.Memory.Bytes

/-!
# Byte streams

A memory stream told without words that wrap around and without a memory behind it: some bytes, and
a cursor that is not behind their end. An access begins at some place and has some length. It fits
if the two together are not behind the end; then it answers, replaces bytes in place and moves the
cursor. If it does not fit, it names the place, the length and the size, and nothing changes.
-/

namespace TableKernels

/-- Bytes with a cursor among them or at their end. -/
structure ByteStream where
  bytes : Bytes
  cursor : ℕ
  inside : cursor ≤ bytes.length

/-- Bytes that can be handed over: a word counts them. -/
structure Payload where
  bytes : Bytes
  short : bytes.length < 0x10000000000000000

/-- The eight bytes of an integer, the lowest first. -/
def Payload.ofInt64 (value : Int64) : Payload where
  bytes := LittleEndian.encode 8 value.toUInt64
  short := by
    rw [LittleEndian.length_encode]
    decide

/-- What can be done with a stream. -/
inductive Access
  | seek (position : UInt64)
  | position
  | getData (length : UInt64)
  | putData (data : Payload)
  | read (offset length : UInt64)
  | write (offset : UInt64) (data : Payload)
  | readInt64 (offset : UInt64)
  | writeInt64 (offset : UInt64) (value : Int64)

/-- What an access answers. -/
inductive StreamReply
  | done
  | position (place : ℕ)
  | bytes (data : Bytes)
  | integer (value : Int64)

/-- An access that does not fit. -/
structure OutOfBounds where
  offset : ℕ
  length : ℕ
  size : ℕ

/-- Bytes with others in place of those from an offset on. -/
def splice (bytes : Bytes) (offset : ℕ) (data : Bytes) : Bytes :=
  bytes.take offset ++ data ++ bytes.drop (offset + data.length)

/-- So many bytes from an offset on. -/
def slice (bytes : Bytes) (offset length : ℕ) : Bytes := (bytes.drop offset).take length

section Splice

variable {bytes data : Bytes} {offset : ℕ}

theorem splice_nil (bytes : Bytes) (offset : ℕ) : splice bytes offset [] = bytes := by
  rw [splice, List.append_nil, List.length_nil, Nat.add_zero, List.take_append_drop]

theorem length_splice (fits : offset + data.length ≤ bytes.length) :
    (splice bytes offset data).length = bytes.length := by
  simp only [splice, List.length_append, List.length_take, List.length_drop]
  omega

theorem slice_splice (fits : offset + data.length ≤ bytes.length) :
    slice (splice bytes offset data) offset data.length = data := by
  have length : (bytes.take offset).length = offset := List.length_take_of_le (by omega)
  rw [slice, splice, List.append_assoc, List.drop_append_of_le_length length.ge,
    List.drop_of_length_le length.le, List.nil_append, List.take_left]

theorem getElem?_splice (fits : offset + data.length ≤ bytes.length) {place : ℕ}
    (outside : place < offset ∨ offset + data.length ≤ place) :
    (splice bytes offset data)[place]? = bytes[place]? := by
  have length : (bytes.take offset).length = offset := List.length_take_of_le (by omega)
  rcases outside with before | behind
  · rw [splice, List.append_assoc, List.getElem?_append_left (by omega),
      List.getElem?_take_of_lt before]
  · rw [splice, List.getElem?_append_right (by rw [List.length_append]; omega),
      List.getElem?_drop, List.length_append, length]
    congr 1
    omega

end Splice

/-! ## Buffers -/

section Buffer

variable {bytes : ByteArray}

theorem length_toList (bytes : ByteArray) : bytes.toList.length = bytes.size := by
  rw [toList_eq, Array.length_toList]
  rfl

theorem toList_set {address : ℕ} (inside : address < bytes.size) (value : UInt8) :
    (bytes.set address value inside).toList = bytes.toList.set address value := by
  rw [toList_eq, toList_eq]
  exact Array.toList_set _ _ _ inside

theorem byteIn_eq_getElem? (bytes : ByteArray) (place : ℕ) :
    byteIn bytes place = (bytes.toList[place]?).getD 0 := by
  rw [byteIn, toList_eq, Array.getD_eq_getD_getElem?, Array.getElem?_toList]

theorem toList_extract_add (bytes : ByteArray) (offset length : ℕ) :
    (bytes.extract offset (offset + length)).toList = slice bytes.toList offset length := by
  rw [toList_eq, toList_eq, ByteArray.data_extract, Array.toList_extract, List.extract_eq_take_drop,
    slice, Nat.add_sub_cancel_left]

theorem overwrite_empty (offset : ℕ) (data : Bytes) : overwrite .empty offset data = .empty := by
  cases data <;> rfl

theorem toList_overwrite {data : Bytes} {offset : ℕ} (fits : offset + data.length ≤ bytes.size) :
    (overwrite bytes offset data).toList = splice bytes.toList offset data := by
  induction data generalizing bytes offset with
  | nil => rw [overwrite, splice_nil]
  | cons byte rest hypothesis =>
    rw [List.length_cons] at fits
    have inside : offset < bytes.size := by omega
    have inside' : offset < bytes.toList.length := by rwa [length_toList]
    have before : (bytes.toList.set offset byte).take (offset + 1) =
        bytes.toList.take offset ++ [byte] := by
      rw [List.take_add_one, List.take_set_of_le le_rfl, List.getElem?_set_self inside',
        Option.toList_some]
    have behind : (bytes.toList.set offset byte).drop (offset + 1 + rest.length) =
        bytes.toList.drop (offset + (rest.length + 1)) := by
      rw [List.drop_set_of_lt (by omega), Nat.add_assoc, Nat.add_comm 1]
    rw [overwrite, dif_pos inside, hypothesis (by rw [size_set]; omega), toList_set, splice, splice,
      before, behind, List.length_cons, List.append_assoc _ [byte], List.singleton_append]

end Buffer

/-! ## Accesses -/

namespace Access

/-- The place at which an access begins. -/
def start (stream : ByteStream) : Access → ℕ
  | seek place => place.toNat
  | position | getData _ | putData _ => stream.cursor
  | read offset _ | write offset _ | readInt64 offset | writeInt64 offset _ => offset.toNat

/-- The number of bytes that an access touches. -/
def length : Access → ℕ
  | seek _ | position => 0
  | getData count | read _ count => count.toNat
  | putData data | write _ data => data.bytes.length
  | readInt64 _ | writeInt64 _ _ => 8

/-- The bytes that an access puts where it begins. -/
def written : Access → Bytes
  | putData data | write _ data => data.bytes
  | writeInt64 _ value => (Payload.ofInt64 value).bytes
  | seek _ | position | getData _ | read _ _ | readInt64 _ => []

/-- The cursor after an access that succeeds. -/
def cursor (stream : ByteStream) : Access → ℕ
  | seek place => place.toNat
  | getData count => stream.cursor + count.toNat
  | putData data => stream.cursor + data.bytes.length
  | position | read _ _ | write _ _ | readInt64 _ | writeInt64 _ _ => stream.cursor

/-- What an access answers if it fits. -/
def answer (stream : ByteStream) : Access → StreamReply
  | seek _ | putData _ | write _ _ | writeInt64 _ _ => .done
  | position => .position stream.cursor
  | getData count => .bytes (slice stream.bytes stream.cursor count.toNat)
  | read offset count => .bytes (slice stream.bytes offset.toNat count.toNat)
  | readInt64 offset => .integer (LittleEndian.decode (slice stream.bytes offset.toNat 8)).toInt64

/-- Whether an access stays within the bytes. -/
def Fits (stream : ByteStream) (access : Access) : Prop :=
  access.start stream + access.length ≤ stream.bytes.length

instance (stream : ByteStream) (access : Access) : Decidable (access.Fits stream) :=
  inferInstanceAs (Decidable (_ ≤ _))

variable {stream : ByteStream} {access : Access}

theorem length_written_le (access : Access) : access.written.length ≤ access.length := by
  cases access with
  | putData | write => exact le_rfl
  | writeInt64 offset value => exact (LittleEndian.length_encode 8 _).le
  | seek | position | getData | read | readInt64 => exact Nat.zero_le _

theorem Fits.written (fits : access.Fits stream) :
    access.start stream + access.written.length ≤ stream.bytes.length := by
  have le := access.length_written_le
  rw [Fits] at fits
  omega

/-- An access that fits leaves the cursor among the bytes. -/
theorem Fits.cursor (fits : access.Fits stream) : access.cursor stream ≤ stream.bytes.length := by
  cases access with
  | seek | getData | putData => exact fits
  | position | read | write | readInt64 | writeInt64 => exact stream.inside

/-- What an access does to a stream. -/
def run (access : Access) (stream : ByteStream) : Except OutOfBounds StreamReply × ByteStream :=
  if fits : access.Fits stream then
    (.ok (access.answer stream),
      ⟨splice stream.bytes (access.start stream) access.written, access.cursor stream,
        fits.cursor.trans_eq (length_splice fits.written).symm⟩)
  else (.error ⟨access.start stream, access.length, stream.bytes.length⟩, stream)

theorem run_of_fits (fits : access.Fits stream) :
    (access.run stream).1 = .ok (access.answer stream) ∧
      (access.run stream).2.bytes =
        splice stream.bytes (access.start stream) access.written ∧
      (access.run stream).2.cursor = access.cursor stream := by
  rw [run, dif_pos fits]
  exact ⟨rfl, rfl, rfl⟩

theorem run_of_not_fits (outside : ¬ access.Fits stream) :
    access.run stream =
      (.error ⟨access.start stream, access.length, stream.bytes.length⟩, stream) :=
  dif_neg outside

theorem length_run (access : Access) (stream : ByteStream) :
    (access.run stream).2.bytes.length = stream.bytes.length := by
  by_cases fits : access.Fits stream
  · rw [(run_of_fits fits).2.1, length_splice fits.written]
  · rw [run_of_not_fits fits]

theorem getElem?_run (access : Access) (stream : ByteStream) {place : ℕ}
    (outside : place < access.start stream ∨ access.start stream + access.length ≤ place) :
    (access.run stream).2.bytes[place]? = stream.bytes[place]? := by
  have le := access.length_written_le
  by_cases fits : access.Fits stream
  · rw [(run_of_fits fits).2.1, getElem?_splice fits.written (by omega)]
  · rw [run_of_not_fits fits]

theorem run_writeInt64 (stream : ByteStream) (offset : UInt64) (value : Int64) :
    (writeInt64 offset value).run stream = (write offset (.ofInt64 value)).run stream := by
  have length : (write offset (.ofInt64 value)).length = (writeInt64 offset value).length :=
    LittleEndian.length_encode 8 _
  by_cases fits : (writeInt64 offset value).Fits stream
  · have fits' : (write offset (.ofInt64 value)).Fits stream := by
      rw [Fits, length]
      exact fits
    rw [run, run, dif_pos fits, dif_pos fits']
    rfl
  · have outside : ¬ (write offset (.ofInt64 value)).Fits stream := by
      rw [Fits, length]
      exact fits
    rw [run_of_not_fits fits, run_of_not_fits outside, length]
    rfl

theorem slice_run (fits : access.Fits stream) :
    slice (access.run stream).2.bytes (access.start stream) access.written.length =
      access.written := by
  rw [(run_of_fits fits).2.1, slice_splice fits.written]

theorem readInt64_writeInt64 {offset : UInt64} {value : Int64}
    (fits : (writeInt64 offset value).Fits stream) :
    ((readInt64 offset).run ((writeInt64 offset value).run stream).2).1 = .ok (.integer value) := by
  have again : (readInt64 offset).Fits ((writeInt64 offset value).run stream).2 := by
    rw [Fits, length_run]
    exact fits
  have found : slice ((writeInt64 offset value).run stream).2.bytes offset.toNat 8 =
      LittleEndian.encode 8 value.toUInt64 := by
    have found := slice_run fits
    rwa [written, Payload.ofInt64, LittleEndian.length_encode] at found
  rw [(run_of_fits again).1, answer, found, LittleEndian.decode_encode, Int64.toInt64_toUInt64]

end Access

end TableKernels
