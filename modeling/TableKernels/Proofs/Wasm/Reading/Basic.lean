import Mathlib
import TableKernels.Proofs.Memory.Bytes
import TableKernels.Wasm.Types

/-!
# Reading back

`Reads` says that a decoder takes a value from its written form and leaves whatever follows it. The
combinators of decoders keep this, so that each written form is read back part by part.
-/

namespace TableKernels.Wasm

variable {α β : Type}

/-- A decoder takes a value from bytes and leaves whatever follows them. -/
def Reads (decoder : Decoder α) (bytes : Bytes) (value : α) : Prop :=
  ∀ rest, decoder (bytes ++ rest) = some (value, rest)

namespace Reads

variable {decoder : Decoder α} {bytes bytes' : Bytes} {value : α} {next : α → Decoder β}
  {result : β}

theorem pure (value : α) : Reads (Pure.pure value) [] value :=
  fun _ => rfl

theorem bind (first : Reads decoder bytes value) (second : Reads (next value) bytes' result) :
    Reads (decoder >>= next) (bytes ++ bytes') result := by
  intro rest
  change Decoder.bind decoder next _ = _
  rw [Decoder.bind, List.append_assoc, first]
  exact second rest

theorem map {f : α → β} (first : Reads decoder bytes value) :
    Reads (do return f (← decoder)) bytes (f value) := by
  have read : Reads (do return f (← decoder)) (bytes ++ []) (f value) :=
    first.bind (pure (f value))
  rwa [List.append_nil] at read

theorem require {condition : Bool} {after : Unit → Decoder β} (holds : condition = true)
    (second : Reads (after ()) bytes result) :
    Reads (Decoder.require condition >>= after) bytes result := by
  subst holds
  exact (pure ()).bind second

theorem byte (first : UInt8) : Reads Decoder.byte [first] first :=
  fun _ => rfl

theorem take (bytes : Bytes) : Reads (Decoder.take bytes.length) bytes bytes := by
  intro rest
  induction bytes with
  | nil => rfl
  | cons first bytes hypothesis =>
    rw [List.length_cons, List.cons_append, Decoder.take, hypothesis]
    rfl

/-- Items in a row, of which the decoder takes something else than was written. -/
theorem times {encode : β → Bytes} {view : β → α} {items : List β}
    (each : ∀ item ∈ items, Reads decoder (encode item) (view item)) :
    Reads (Decoder.times decoder items.length) (items.flatMap encode) (items.map view) := by
  induction items with
  | nil => exact pure []
  | cons item items hypothesis =>
    rw [List.flatMap_cons]
    exact (each item (List.mem_cons_self ..)).bind
      (hypothesis fun other mem => each other (List.mem_cons_of_mem _ mem)).map

theorem whole (read : Reads decoder bytes value) : decoder.whole bytes = some value := by
  have taken := read []
  rw [List.append_nil] at taken
  rw [Decoder.whole, taken]

end Reads

/-! ## Decoders in a row -/

theorem Decoder.bind_eq_some {first : Decoder α} {next : α → Decoder β} {bytes rest : Bytes}
    {value : β} (taken : (first >>= next) bytes = some (value, rest)) :
    ∃ between left, first bytes = some (between, left) ∧
      next between left = some (value, rest) := by
  change Decoder.bind first next bytes = _ at taken
  rw [Decoder.bind] at taken
  split at taken
  · next between left same => exact ⟨between, left, same, taken⟩
  · cases taken

theorem Decoder.bind_of_eq_some {first : Decoder α} {next : α → Decoder β} {bytes left : Bytes}
    {between : α} (taken : first bytes = some (between, left)) :
    (first >>= next) bytes = next between left := by
  change Decoder.bind first next bytes = _
  rw [Decoder.bind, taken]

/-! ## Numbers -/

theorem toNat_ofNat8 {number : ℕ} (small : number < 256) : (UInt8.ofNat number).toNat = number :=
  UInt8.toNat_ofNat_of_lt small

namespace Leb128

/-- What is read of a natural number, if it fits the width. -/
theorem natural_ofNat (width number : ℕ) (rest : Bytes) :
    natural width (ofNat number ++ rest) =
      if number < 2 ^ width then some (number, rest) else none := by
  -- Each group of seven bits leaves a number and a width that are smaller, so both vary.
  induction number using Nat.strong_induction_on generalizing width with
  | _ number hypothesis =>
    unfold ofNat
    split
    · next small =>
      have byte : (UInt8.ofNat number).toNat = number := toNat_ofNat8 (by omega)
      have last : UInt8.ofNat number < 128 := by
        rw [UInt8.lt_iff_toNat_lt, byte]
        exact small
      rw [List.singleton_append, natural, if_pos last, byte]
      rcases Nat.lt_or_ge width 7 with narrow | enough
      · simp only [narrow, true_and, Nat.pow_eq]
        split
        · rw [if_neg (by omega)]
        · rw [if_pos (by omega)]
      · have wide := Nat.pow_le_pow_right (by decide : 0 < 2) enough
        rw [if_neg (by omega), if_pos (by omega)]
    · next large =>
      have byte : (UInt8.ofNat (number % 128 + 128)).toNat = number % 128 + 128 :=
        toNat_ofNat8 (by omega)
      have more : ¬ UInt8.ofNat (number % 128 + 128) < 128 := by
        rw [UInt8.lt_iff_toNat_lt, byte]
        change ¬ _ < 128
        omega
      rw [List.cons_append, natural, if_neg more, byte]
      rcases Nat.lt_or_ge 7 width with enough | narrow
      · have power : 2 ^ width = 128 * 2 ^ (width - 7) := by
          rw [show (128 : ℕ) = 2 ^ 7 by rfl, ← Nat.pow_add, Nat.add_sub_cancel' enough.le]
        rw [if_neg (by omega), hypothesis (number / 128) (by omega)]
        split
        · rw [if_pos (by omega), Option.map_some]
          exact congrArg (fun value => some (value, rest)) (by omega)
        · rw [if_neg (by omega), Option.map_none]
      · have wide := Nat.pow_le_pow_right (by decide : 0 < 2) narrow
        rw [if_pos narrow, if_neg (by omega)]

theorem reads_natural {width number : ℕ} (small : number < 2 ^ width) :
    Reads (natural width) (ofNat number) number := by
  intro rest
  rw [natural_ofNat, if_pos small]

theorem reads_u32 (number : UInt32) : Reads u32 (ofNat number.toNat) number := by
  have read := (reads_natural number.toNat_lt).map (f := UInt32.ofNat)
  rwa [UInt32.ofNat_toNat] at read

theorem reads_u64 (number : UInt64) : Reads u64 (ofNat number.toNat) number := by
  have read := (reads_natural number.toNat_lt).map (f := UInt64.ofNat)
  rwa [UInt64.ofNat_toNat] at read

/-- What is read of an integer that fits the width. -/
theorem reads_integer (width : ℕ) (number : ℤ) (width_pos : 0 < width)
    (lower : -2 ^ (width - 1) ≤ number) (upper : number < 2 ^ (width - 1)) :
    Reads (integer width) (ofInt number) number := by
  intro rest
  unfold ofInt
  split
  · next small =>
    have byte : (UInt8.ofNat (number % 128).toNat).toNat = (number % 128).toNat :=
      toNat_ofNat8 (by omega)
    have last : UInt8.ofNat (number % 128).toNat < 128 := by
      rw [UInt8.lt_iff_toNat_lt, byte]
      change _ < 128
      omega
    have group : lastGroup (UInt8.ofNat (number % 128).toNat) = number := by
      rw [lastGroup, byte]
      split <;> omega
    rw [List.singleton_append, integer, if_pos last, group]
    have half : ((Nat.pow 2 (width - 1) : ℕ) : ℤ) = 2 ^ (width - 1) := by
      rw [Nat.pow_eq, Nat.cast_pow]
      rfl
    simp only [half, lower, upper, and_self, not_true_eq_false, and_false, if_false]
  · next large =>
    have byte : (UInt8.ofNat ((number % 128).toNat + 128)).toNat = (number % 128).toNat + 128 :=
      toNat_ofNat8 (by omega)
    have more : ¬ UInt8.ofNat ((number % 128).toNat + 128) < 128 := by
      rw [UInt8.lt_iff_toNat_lt, byte]
      change ¬ _ < 128
      omega
    -- A number that does not fit one group needs more than seven bits.
    have enough : 7 < width := by
      by_contra narrow
      have power : (2 : ℤ) ^ (width - 1) ≤ 2 ^ 6 :=
        pow_le_pow_right₀ (by decide) (by omega)
      omega
    have power : (2 : ℤ) ^ (width - 1) = 128 * 2 ^ (width - 7 - 1) := by
      rw [show (128 : ℤ) = 2 ^ 7 by rfl, ← pow_add]
      congr 1
      omega
    have high := reads_integer (width - 7) (number / 128) (by omega) (by omega) (by omega)
    rw [List.cons_append, integer, if_neg more, if_neg (by omega), high, byte, Option.map_some]
    exact congrArg (fun value => some (value, rest)) (by omega)
termination_by number.natAbs

end Leb128

theorem Leb128.length_ofNat_pos (number : ℕ) : 1 ≤ (Leb128.ofNat number).length := by
  unfold Leb128.ofNat
  split <;> simp

theorem Leb128.length_ofNat_le (number : ℕ) : (Leb128.ofNat number).length ≤ number + 1 := by
  induction number using Nat.strong_induction_on with
  | _ number hypothesis =>
    unfold Leb128.ofNat
    split
    · simp
    · have shorter := hypothesis (number / 128) (by omega)
      rw [List.length_cons]
      omega

theorem reads_index (index : UInt32) : Reads Leb128.u32 (Leb128.ofNat index.toNat) index :=
  Leb128.reads_u32 index

/-! ## Sequences -/

variable {decoder : Decoder α}

/-- Items that are written in at least a byte each. -/
theorem length_le_flatMap {encode : α → Bytes} {items : List α}
    (each : ∀ item ∈ items, 1 ≤ (encode item).length) :
    items.length ≤ (items.flatMap encode).length := by
  induction items with
  | nil => exact le_refl 0
  | cons item items hypothesis =>
    have one := each item (List.mem_cons_self ..)
    have others := hypothesis fun other mem => each other (List.mem_cons_of_mem _ mem)
    rw [List.flatMap_cons, List.length_append, List.length_cons]
    omega

theorem reads_vector {encode : α → Bytes} {items : List α} {limit : ℕ}
    (short : items.length ≤ limit) (limit_lt : limit < 2 ^ 32)
    (each : ∀ item ∈ items, Reads decoder (encode item) item) :
    Reads (Decoder.vector decoder limit) (vector encode items) items := by
  have all : Reads (Decoder.times decoder items.length) (items.flatMap encode) (items.map id) :=
    Reads.times each
  rw [List.map_id] at all
  exact (Leb128.reads_natural (by omega)).bind (Reads.require (decide_eq_true short) all)

theorem fromUTF8?_toUTF8 (text : String) :
    String.fromUTF8? ⟨text.toUTF8.toList.toArray⟩ = some text := by
  rw [toList_eq, Array.toArray_toList]
  change (if valid : text.toByteArray.IsValidUTF8 then some (String.fromUTF8 _ valid) else none) = _
  rw [dif_pos text.isValidUTF8]
  rfl

theorem length_toUTF8 (text : String) : text.toUTF8.toList.length = text.utf8ByteSize := by
  rw [toList_eq, Array.length_toList]
  rfl

theorem reads_name {name : String} (short : name.utf8ByteSize ≤ nameLimit) :
    Reads decodeName (encodeName name) name := by
  have length := length_toUTF8 name
  have small : name.toUTF8.toList.length < 2 ^ 32 := by
    rw [length]
    exact short.trans_lt (by decide)
  have read : Reads decodeName (Leb128.ofNat name.toUTF8.toList.length ++
      (name.toUTF8.toList ++ [])) name := by
    refine (Leb128.reads_natural small).bind (Reads.require (decide_eq_true (length.trans_le short))
      ((Reads.take _).bind ?_))
    rw [fromUTF8?_toUTF8]
    exact Reads.pure name
  rwa [List.append_nil] at read

end TableKernels.Wasm
