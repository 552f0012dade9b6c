import Mathlib
import TableKernels.Wasm.Machine

/-!
# Bytes of a buffer

Each change of a buffer is described by its size and by the byte at every address, where an address
outside the buffer holds zero. Growth by zeroed bytes therefore changes no byte.
-/

namespace TableKernels

/-- The byte at an address; outside the buffer it is zero. -/
def byteIn (bytes : ByteArray) (address : ℕ) : UInt8 := bytes.data.getD address 0

variable {bytes : ByteArray} {address : ℕ} {value : UInt8}

theorem byteIn_eq (inside : address < bytes.size) : byteIn bytes address = bytes[address] := by
  have inside' : address < bytes.data.size := inside
  rw [byteIn, Array.getD_eq_getD_getElem?, Array.getElem?_eq_getElem inside']
  rfl

theorem byteIn_eq_zero (outside : bytes.size ≤ address) : byteIn bytes address = 0 := by
  have outside' : bytes.data.size ≤ address := outside
  rw [byteIn, Array.getD_eq_getD_getElem?, Array.getElem?_eq_none outside']
  rfl

theorem Wasm.Memory.byteAt_eq (memory : Wasm.Memory) (address : ℕ) :
    memory.byteAt address = byteIn memory.bytes address := by
  unfold Wasm.Memory.byteAt
  split
  · next inside => rw [byteIn_eq inside]
  · next outside => rw [byteIn_eq_zero (Nat.not_lt.mp outside)]

/-- Buffers of one size with the same bytes are the same. -/
theorem bytes_ext {left right : ByteArray} (size : left.size = right.size)
    (same : ∀ address, address < left.size → byteIn left address = byteIn right address) :
    left = right := by
  refine ByteArray.ext_getElem size fun address inside inside' => ?_
  rw [← byteIn_eq inside, ← byteIn_eq inside', same address inside]

theorem toList_loop (bytes : ByteArray) (place : ℕ) (taken : Bytes) :
    ByteArray.toList.loop bytes place taken = taken.reverse ++ bytes.data.toList.drop place := by
  unfold ByteArray.toList.loop
  split
  · next inside =>
    have inside' : place < bytes.data.toList.length := inside
    have byte : bytes.get! place = bytes.data.toList[place] :=
      getElem!_pos bytes.data place inside
    rw [toList_loop bytes (place + 1), List.drop_eq_getElem_cons inside', List.reverse_cons, byte,
      List.append_assoc, List.singleton_append]
  · next outside =>
    rw [List.drop_eq_nil_of_le (Nat.not_lt.mp outside), List.append_nil]
termination_by bytes.size - place

theorem toList_eq (bytes : ByteArray) : bytes.toList = bytes.data.toList :=
  toList_loop bytes 0 []

theorem size_set (inside : address < bytes.size) :
    (bytes.set address value inside).size = bytes.size := by
  change (bytes.data.set address value inside).size = bytes.data.size
  exact Array.size_set inside

theorem byteIn_set (inside : address < bytes.size) (other : ℕ) :
    byteIn (bytes.set address value inside) other =
      if other = address then value else byteIn bytes other := by
  have inside' : address < bytes.data.size := inside
  change (bytes.data.set address value inside').getD other 0 = _
  rw [Array.getD_eq_getD_getElem?, Array.getElem?_set]
  split
  · next same =>
    rw [if_pos same.symm, Option.getD_some]
  · next different =>
    rw [if_neg (Ne.symm different), byteIn, Array.getD_eq_getD_getElem?]

theorem size_overwrite (data : Bytes) (bytes : ByteArray) (offset : ℕ) :
    (overwrite bytes offset data).size = bytes.size := by
  induction data generalizing bytes offset with
  | nil => rfl
  | cons byte rest hypothesis =>
    unfold overwrite
    split
    · rw [hypothesis, size_set]
    · rfl

/-- Overwriting in range replaces exactly the bytes of the range. -/
theorem byteIn_overwrite (data : Bytes) (bytes : ByteArray) (offset : ℕ)
    (fits : offset + data.length ≤ bytes.size) (other : ℕ) :
    byteIn (overwrite bytes offset data) other =
      if offset ≤ other ∧ other < offset + data.length then data.getD (other - offset) 0
      else byteIn bytes other := by
  induction data generalizing bytes offset with
  | nil =>
    rw [if_neg (by simp), overwrite]
  | cons byte rest hypothesis =>
    rw [List.length_cons] at fits ⊢
    rw [overwrite, dif_pos (by omega), hypothesis _ _ (by rw [size_set]; omega), byteIn_set]
    split
    · next later =>
      rw [if_pos (by omega), show other - offset = other - (offset + 1) + 1 by omega,
        List.getD_cons_succ]
    · split
      · next same =>
        subst same
        rw [if_pos (by omega), Nat.sub_self, List.getD_cons_zero]
      · rw [if_neg (by omega)]

theorem size_extendBytes (count : ℕ) (bytes : ByteArray) :
    (extendBytes bytes value count).size = bytes.size + count := by
  induction count generalizing bytes with
  | zero => rfl
  | succ count hypothesis =>
    rw [extendBytes, hypothesis, ByteArray.size_push]
    omega

theorem byteIn_extendBytes (count : ℕ) (bytes : ByteArray) (address : ℕ) :
    byteIn (extendBytes bytes 0 count) address = byteIn bytes address := by
  induction count generalizing bytes with
  | zero => rfl
  | succ count hypothesis =>
    rw [extendBytes, hypothesis]
    simp only [byteIn, ByteArray.data_push, Array.getD_eq_getD_getElem?, Array.getElem?_push]
    split
    · next same =>
      rw [Array.getElem?_eq_none (by omega)]
      rfl
    · rfl

namespace Wasm.Memory

theorem size_setByte (bytes : ByteArray) (address : ℕ) (value : UInt8) :
    (setByte bytes address value).size = bytes.size := by
  unfold setByte
  split
  · exact size_set _
  · rfl

theorem byteIn_setByte (inside : address < bytes.size) (other : ℕ) :
    byteIn (setByte bytes address value) other =
      if other = address then value else byteIn bytes other := by
  rw [setByte, dif_pos inside, byteIn_set]

theorem size_fillBytes (count : ℕ) (bytes : ByteArray) (address : ℕ) :
    (fillBytes bytes address value count).size = bytes.size := by
  induction count generalizing bytes address with
  | zero => rfl
  | succ count hypothesis => rw [fillBytes, hypothesis, size_setByte]

theorem byteIn_fillBytes (count : ℕ) (bytes : ByteArray) (address : ℕ)
    (fits : address + count ≤ bytes.size) (other : ℕ) :
    byteIn (fillBytes bytes address value count) other =
      if address ≤ other ∧ other < address + count then value else byteIn bytes other := by
  induction count generalizing bytes address with
  | zero => rw [if_neg (by omega), fillBytes]
  | succ count hypothesis =>
    rw [fillBytes, hypothesis _ _ (by rw [size_setByte]; omega), byteIn_setByte (by omega)]
    split
    · rw [if_pos (by omega)]
    · split
      · rw [if_pos (by omega)]
      · rw [if_neg (by omega)]

/-- The word of the eight bytes from an address on. -/
def wordAt (bytes : ByteArray) (address : ℕ) : UInt64 :=
  LittleEndian.decode ((List.range 8).map fun place => byteIn bytes (address + place))

theorem loadWord?_eq_some {memory : Memory} (inside : address + 8 ≤ memory.size) :
    memory.loadWord? 8 address = some (wordAt memory.bytes address) := by
  rw [loadWord?, if_pos inside, wordAt, bytesAt]
  simp only [byteAt_eq]

end Wasm.Memory

/-- A load of a word reads the eight bytes from an address on. -/
theorem Wasm.Load.read_i64 {memory : Wasm.Memory} (inside : address + 8 ≤ memory.size) :
    Wasm.Load.i64.read memory address = some (.i64 (Wasm.Memory.wordAt memory.bytes address)) :=
  congrArg (Option.map Wasm.Word.i64) (Wasm.Memory.loadWord?_eq_some inside)

namespace LittleEndian

/-- What is read back from so many bytes of a word are its lowest bits. -/
theorem getLsbD_decode_encode (width : ℕ) (word : UInt64) (bit : ℕ) :
    (decode (encode width word)).toBitVec.getLsbD bit =
      (decide (bit < 8 * width) && word.toBitVec.getLsbD bit) := by
  induction width generalizing word bit with
  | zero => simp [encode, decode]
  | succ width hypothesis =>
    have eight : UInt64.toBitVec 8 % 64 = 8 := rfl
    have shifted : (word >>> 8).toBitVec.getLsbD (bit - 8) =
        word.toBitVec.getLsbD (8 + (bit - 8)) := by
      rw [UInt64.toBitVec_shiftRight, eight, BitVec.ushiftRight_eq', BitVec.getLsbD_ushiftRight]
      rfl
    simp only [encode, decode, UInt64.toBitVec_or, UInt64.toBitVec_shiftLeft, eight,
      BitVec.getLsbD_or, UInt8.toBitVec_toUInt64, UInt64.toBitVec_toUInt8, BitVec.getLsbD_setWidth,
      BitVec.shiftLeft_eq', BitVec.getLsbD_shiftLeft, hypothesis]
    rw [show BitVec.toNat (8 : BitVec 64) = 8 from rfl, shifted]
    rcases Nat.lt_or_ge bit 8 with low | high
    · simp [low, show bit < 64 by omega, show bit < 8 * (width + 1) by omega]
    · have bounds : bit - 8 < 8 * width ↔ bit < 8 * (width + 1) := by omega
      rw [Nat.add_sub_cancel' high]
      rcases Nat.lt_or_ge bit 64 with inside | outside
      · simp [Nat.not_lt.mpr high, inside, bounds]
      · rw [BitVec.getLsbD_of_ge _ _ outside]
        simp

theorem decode_encode (word : UInt64) : decode (encode 8 word) = word := by
  rw [← UInt64.toBitVec_inj]
  refine BitVec.eq_of_getLsbD_eq fun bit lt => ?_
  rw [getLsbD_decode_encode, decide_eq_true (by omega), Bool.true_and]

theorem decode_encode_four (word : UInt32) :
    (decode (encode 4 word.toUInt64)).toUInt32 = word := by
  rw [← UInt32.toBitVec_inj]
  refine BitVec.eq_of_getLsbD_eq fun bit lt => ?_
  rw [UInt64.toBitVec_toUInt32, BitVec.getLsbD_setWidth, getLsbD_decode_encode,
    UInt32.toBitVec_toUInt64, BitVec.getLsbD_setWidth]
  simp [lt, show bit < 64 by omega]

theorem length_encode (width : ℕ) (word : UInt64) : (encode width word).length = width := by
  induction width generalizing word with
  | zero => rfl
  | succ width hypothesis => rw [encode, List.length_cons, hypothesis]

end LittleEndian

namespace Wasm.Memory

variable {word : UInt64}

theorem wordAt_overwrite (fits : address + 8 ≤ bytes.size) :
    wordAt (overwrite bytes address (LittleEndian.encode 8 word)) address = word := by
  have length := LittleEndian.length_encode 8 word
  have eight : (List.range 8).map (fun place =>
      byteIn (overwrite bytes address (LittleEndian.encode 8 word)) (address + place)) =
        LittleEndian.encode 8 word := by
    refine List.ext_getElem (by rw [List.length_map, List.length_range, length]) ?_
    intro place inside inside'
    rw [List.getElem_map, List.getElem_range, byteIn_overwrite _ _ _ (by omega),
      if_pos (by omega), Nat.add_sub_cancel_left, List.getD_eq_getElem _ _ inside']
  rw [wordAt, eight, LittleEndian.decode_encode]

theorem wordAt_congr {changed : ByteArray} {place : ℕ}
    (same : ∀ other, place ≤ other → other < place + 8 → byteIn changed other = byteIn bytes other) :
    wordAt changed place = wordAt bytes place := by
  refine congrArg LittleEndian.decode (List.map_congr_left fun index inside => ?_)
  have lt := List.mem_range.mp inside
  exact same _ (by omega) (by omega)

end Wasm.Memory

theorem byteIn_extract {stop : ℕ} (inside : stop ≤ bytes.size) (lt : address < stop) :
    byteIn (bytes.extract 0 stop) address = byteIn bytes address := by
  have size : bytes.size = bytes.data.size := rfl
  rw [byteIn, byteIn, ByteArray.data_extract, Array.getD_eq_getD_getElem?,
    Array.getD_eq_getD_getElem?, Array.getElem?_extract, if_pos (by omega), Nat.zero_add]

theorem size_extract {stop : ℕ} (inside : stop ≤ bytes.size) :
    (bytes.extract 0 stop).size = stop := by
  rw [ByteArray.size_extract, Nat.min_eq_left inside, Nat.sub_zero]

theorem toList_extract {stop : ℕ} (inside : stop ≤ bytes.size) :
    (bytes.extract 0 stop).toList = (List.range stop).map (byteIn bytes) := by
  have size : (bytes.extract 0 stop).data.size = stop := size_extract inside
  rw [toList_eq]
  refine List.ext_getElem ?_ fun place lt _ => ?_
  · rw [Array.length_toList, size, List.length_map, List.length_range]
  · rw [Array.length_toList, size] at lt
    have lt' : place < (bytes.extract 0 stop).size := by rwa [size_extract inside]
    rw [List.getElem_map, List.getElem_range, ← byteIn_extract inside lt, byteIn_eq lt']
    rfl

theorem decode_extract (inside : 8 ≤ bytes.size) :
    LittleEndian.decode (bytes.extract 0 8).toList = Wasm.Memory.wordAt bytes 0 := by
  rw [toList_extract inside, Wasm.Memory.wordAt]
  simp only [Nat.zero_add]

end TableKernels
