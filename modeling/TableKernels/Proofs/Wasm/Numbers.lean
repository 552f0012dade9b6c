import Mathlib
import TableKernels.Wasm.Evaluation

/-!
# Words that hold natural numbers

Compiled code counts and addresses with words. As long as the numbers fit, its comparisons and its
arithmetic are those of the natural numbers.
-/

namespace TableKernels.Wasm

variable {left right : ℕ}

theorem toNat_ofNat64 (small : left < 0x10000000000000000) : (UInt64.ofNat left).toNat = left :=
  UInt64.toNat_ofNat_of_lt' small

theorem toNat_ofNat32 (small : left < 0x100000000) : (UInt32.ofNat left).toNat = left :=
  UInt32.toNat_ofNat_of_lt' small

theorem toInt_ofNat64 (small : left < 0x8000000000000000) :
    (UInt64.ofNat left).toInt64.toInt = left := by
  change (Int64.ofNat left).toInt = left
  exact Int64.toInt_ofNat_of_lt small

theorem toUInt64_of_nonneg {value : Int64} (nonneg : 0 ≤ value.toInt) :
    value.toUInt64 = UInt64.ofNat value.toInt.toNat := by
  have same : value = Int64.ofNat value.toInt.toNat := by
    rw [← Int64.ofInt_eq_ofNat, Int.toNat_of_nonneg nonneg, Int64.ofInt_toInt]
  exact congrArg Int64.toUInt64 same

theorem toInt32_toUInt32 (value : Int64) : value.toUInt64.toUInt32.toInt32 = value.toInt32 := by
  refine Int32.toBitVec_inj.mp ?_
  rw [Int64.toBitVec_toInt32, BitVec.signExtend_eq_setWidth_of_le _ (by decide)]
  simp

/-- One for a statement that holds, and zero for any other. -/
def truthOf (statement : Prop) [Decidable statement] : UInt32 := if statement then 1 else 0

theorem truth_decide (statement : Prop) [Decidable statement] :
    truth statement = .i32 (truthOf statement) := by
  simp only [truth, truthOf, decide_eq_true_eq]

theorem truthOf_ne_zero {statement : Prop} [Decidable statement] (holds : statement) :
    truthOf statement ≠ 0 := by
  rw [truthOf, if_pos holds]
  decide

theorem truthOf_eq_zero {statement : Prop} [Decidable statement] (fails : ¬ statement) :
    truthOf statement = 0 :=
  if_neg fails

theorem truthOf_congr {first second : Prop} [Decidable first] [Decidable second]
    (same : first ↔ second) : truthOf first = truthOf second := by
  simp only [truthOf, same]

theorem truthOf_or (first second : Prop) [Decidable first] [Decidable second] :
    truthOf first ||| truthOf second = truthOf (first ∨ second) := by
  by_cases holds : first <;> by_cases holds' : second <;> simp [truthOf, holds, holds']

theorem truth_lt_signed (small_left : left < 0x8000000000000000)
    (small_right : right < 0x8000000000000000) :
    truth ((UInt64.ofNat left).toInt64 < (UInt64.ofNat right).toInt64) =
      .i32 (truthOf (left < right)) := by
  have compare : (UInt64.ofNat left).toInt64 < (UInt64.ofNat right).toInt64 ↔ left < right := by
    rw [Int64.lt_iff_toInt_lt, toInt_ofNat64 small_left, toInt_ofNat64 small_right]
    exact Int.ofNat_lt
  simp only [truth_decide, truthOf, compare]

theorem truth_le_signed (small_left : left < 0x8000000000000000)
    (small_right : right < 0x8000000000000000) :
    truth ((UInt64.ofNat left).toInt64 ≤ (UInt64.ofNat right).toInt64) =
      .i32 (truthOf (left ≤ right)) := by
  have compare : (UInt64.ofNat left).toInt64 ≤ (UInt64.ofNat right).toInt64 ↔ left ≤ right := by
    rw [Int64.le_iff_toInt_le, toInt_ofNat64 small_left, toInt_ofNat64 small_right]
    exact Int.ofNat_le
  simp only [truth_decide, truthOf, compare]

theorem truth_lt (small_left : left < 0x10000000000000000)
    (small_right : right < 0x10000000000000000) :
    truth (UInt64.ofNat left < UInt64.ofNat right) = .i32 (truthOf (left < right)) := by
  have compare : UInt64.ofNat left < UInt64.ofNat right ↔ left < right := by
    rw [UInt64.lt_iff_toNat_lt, toNat_ofNat64 small_left, toNat_ofNat64 small_right]
  simp only [truth_decide, truthOf, compare]

theorem truth_le (small_left : left < 0x10000000000000000)
    (small_right : right < 0x10000000000000000) :
    truth (UInt64.ofNat left ≤ UInt64.ofNat right) = .i32 (truthOf (left ≤ right)) := by
  have compare : UInt64.ofNat left ≤ UInt64.ofNat right ↔ left ≤ right := by
    rw [UInt64.le_iff_toNat_le, toNat_ofNat64 small_left, toNat_ofNat64 small_right]
  simp only [truth_decide, truthOf, compare]

theorem truth_eq (small_left : left < 0x10000000000000000)
    (small_right : right < 0x10000000000000000) :
    truth (UInt64.ofNat left == UInt64.ofNat right) = .i32 (truthOf (left = right)) := by
  have compare : UInt64.ofNat left = UInt64.ofNat right ↔ left = right := by
    rw [← UInt64.toNat_inj, toNat_ofNat64 small_left, toNat_ofNat64 small_right]
  simp only [truth, truthOf, beq_iff_eq, compare]

theorem sub_ofNat64 (le : right ≤ left) (small : left < 0x10000000000000000) :
    UInt64.ofNat left - UInt64.ofNat right = UInt64.ofNat (left - right) := by
  rw [← UInt64.toNat_inj, UInt64.toNat_sub_of_le, toNat_ofNat64 small,
    toNat_ofNat64 (le.trans_lt small), toNat_ofNat64 (by omega)]
  rw [UInt64.le_iff_toNat_le, toNat_ofNat64 small, toNat_ofNat64 (le.trans_lt small)]
  exact le

theorem mod_ofNat64 (small : left < 0x10000000000000000)
    (small_right : right < 0x10000000000000000) :
    UInt64.ofNat left % UInt64.ofNat right = UInt64.ofNat (left % right) := by
  rw [← UInt64.toNat_inj, UInt64.toNat_mod, toNat_ofNat64 small, toNat_ofNat64 small_right,
    toNat_ofNat64 ((Nat.mod_le left right).trans_lt small)]

end TableKernels.Wasm
