import TableKernels.Proofs.Wasm.Reading.Basic
import TableKernels.Wasm.Module

/-!
# Passing over what is read

Whatever a reader takes as a plain instruction, or as a constant, a reader that does not ask what
instructions do passes over as well, and both leave the same bytes behind.
-/

namespace TableKernels.Wasm

variable {α β γ δ : Type}

/-- One decoder takes what another one takes, and gives a view of its value. -/
def Mirrors (coarse : Decoder β) (fine : Decoder α) (view : α → β) : Prop :=
  ∀ bytes value rest, fine bytes = some (value, rest) → coarse bytes = some (view value, rest)

namespace Mirrors

theorem refl (decoder : Decoder α) : Mirrors decoder decoder id := fun _ _ _ taken => taken

theorem bind {coarse : Decoder β} {fine : Decoder α} {view : α → β} {next : β → Decoder δ}
    {next' : α → Decoder γ} {view' : γ → δ} (first : Mirrors coarse fine view)
    (second : ∀ value, Mirrors (next (view value)) (next' value) view') :
    Mirrors (coarse >>= next) (fine >>= next') view' := by
  intro bytes value rest taken
  obtain ⟨between, left, one, other⟩ := Decoder.bind_eq_some taken
  rw [Decoder.bind_of_eq_some (first bytes between left one)]
  exact second between left value rest other

/-- A value that is built from what was taken is not looked at. -/
theorem pure {view : α → β} {value : α} {value' : β} (same : view value = value') :
    Mirrors (Pure.pure value') (Pure.pure value) view := by
  intro bytes found rest taken
  obtain ⟨rfl, rfl⟩ := Prod.mk.inj (Option.some.inj taken)
  exact congrArg (fun value => some (value, bytes)) same.symm

theorem map {coarse : Decoder β} {fine : Decoder α} {view : α → β} {change : α → γ}
    {view' : γ → β} (mirrors : Mirrors coarse fine view)
    (same : ∀ value, view' (change value) = view value) :
    Mirrors coarse (do return change (← fine)) view' := by
  intro bytes value rest taken
  obtain ⟨between, left, one, ends⟩ := Decoder.bind_eq_some taken
  cases ends
  rw [mirrors bytes between rest one, same]

theorem discard (decoder : Decoder α) :
    Mirrors (do let _ ← decoder) decoder fun _ => () := by
  intro bytes value rest taken
  exact Decoder.bind_of_eq_some taken

/-! ### Parts of instructions -/

theorem skipNone {value : γ} : Mirrors (Immediate.skipAll []) (Pure.pure value) fun _ => () :=
  pure rfl

/-- A part is passed over where it is taken, and so are the parts behind it. -/
theorem skipPart {part : Immediate} {parts : List Immediate} {fine : Decoder α}
    {next : α → Decoder γ} (first : Mirrors part.skip fine fun _ => ())
    (others : ∀ value, Mirrors (Immediate.skipAll parts) (next value) fun _ => ()) :
    Mirrors (Immediate.skipAll (part :: parts)) (fine >>= next) fun _ => () :=
  first.bind others

theorem skipIndex {parts : List Immediate} {next : UInt32 → Decoder γ}
    (others : ∀ value, Mirrors (Immediate.skipAll parts) (next value) fun _ => ()) :
    Mirrors (Immediate.skipAll (.index :: parts)) (Leb128.u32 >>= next) fun _ => () :=
  skipPart (discard _) others

/-- The parts of an instruction with one code are passed over behind the code. -/
theorem immediates {code : UInt8} {parts : List Immediate} {fine : Decoder α}
    (single : subcodes? code = none) (found : immediatesOf? code = some parts)
    (skips : Mirrors (Immediate.skipAll parts) fine fun _ => ()) :
    Mirrors (skipImmediates code) fine fun _ => () := by
  intro bytes value rest taken
  rw [skipImmediates, single, found]
  exact skips bytes value rest taken

end Mirrors

/-! ## Plain instructions -/

section Listed

variable {code : UInt8}

theorem subcodes?_of_le (high : code ≤ 0xc4) : subcodes? code = none := by
  unfold subcodes?
  split <;> first | exact absurd high (by decide) | rfl

theorem immediatesOf?_of_access (low : 0x28 ≤ code) (high : code ≤ 0x3e) :
    immediatesOf? code = some [.place] := by
  unfold immediatesOf?
  split <;> first
    | exact absurd low (by decide)
    | exact absurd high (by decide)
    | simp only [low, high, decide_true, Bool.and_self, if_true]

theorem immediatesOf?_of_operator (low : 0x45 ≤ code) (high : code ≤ 0xc4) :
    immediatesOf? code = some [] := by
  have above : ¬ code ≤ 0x3e := UInt8.not_le.mpr (UInt8.lt_of_lt_of_le (by decide) low)
  unfold immediatesOf?
  split <;> first
    | exact absurd low (by decide)
    | exact absurd high (by decide)
    | simp only [low, high, above, decide_true, decide_false, Bool.and_self, Bool.and_false,
        Bool.false_eq_true, if_true, if_false]

/-- A code that stands for an item of a list lies within the codes of the list. -/
theorem le_of_listed {α : Type} {first : UInt8} {items : List α} {item : α}
    (found : (if first ≤ code then items[(code - first).toNat]? else none) = some item) :
    first ≤ code ∧ code.toNat < first.toNat + items.length := by
  obtain ⟨low, found⟩ := Option.ite_none_right_eq_some.mp found
  have inside := (List.getElem?_eq_some_iff.mp found).1
  rw [UInt8.toNat_sub_of_le _ _ low] at inside
  exact ⟨low, by omega⟩

theorem skips_access (low : 0x28 ≤ code) (high : code ≤ 0x3e) (build : MemoryPlace → Op) :
    Mirrors (skipImmediates code) (do return build (← MemoryPlace.decode)) fun _ => () :=
  .immediates (subcodes?_of_le (UInt8.le_trans high (by decide)))
    (immediatesOf?_of_access low high) (.skipPart (.discard _) fun _ => .skipNone)

theorem Op.skips_listed (code : UInt8) :
    Mirrors (skipImmediates code) (Op.decodeListed code) fun _ => () := by
  rw [Op.decodeListed]
  split
  · next form found =>
    obtain ⟨low, high⟩ := le_of_listed found
    exact skips_access low (UInt8.le_iff_toNat_le.mpr (Nat.le_of_lt_succ
      (Nat.lt_of_lt_of_le high (by decide)))) _
  · split
    · next form found =>
      obtain ⟨low, high⟩ := le_of_listed found
      exact skips_access (UInt8.le_trans (by decide) low)
        (UInt8.le_iff_toNat_le.mpr (Nat.le_of_lt_succ high)) _
    · split
      · next operator found =>
        rw [Operator.ofCode?, Operator.table] at found
        simp only [List.getElem?_toArray] at found
        obtain ⟨low, high⟩ := le_of_listed found
        have length : Operator.listed.length = 128 := by cbv
        rw [length] at high
        have within : code ≤ 0xc4 := UInt8.le_iff_toNat_le.mpr (Nat.le_of_lt_succ high)
        exact .immediates (subcodes?_of_le within) (immediatesOf?_of_operator low within) .skipNone
      · exact fun _ _ _ taken => nomatch taken

end Listed

/-- Passes over what follows a second code. -/
def skipSecond (second : UInt32) : Decoder Unit :=
  match bulkImmediates? second with
  | some parts => Immediate.skipAll parts
  | none => Decoder.fail

/-- What follows the byte that announces a second code is told by that code. -/
theorem skipImmediates_extended {bytes left : Bytes} {second : UInt32}
    (read : Leb128.u32 bytes = some (second, left)) :
    skipImmediates 0xfc bytes = skipSecond second left :=
  (Decoder.bind_of_eq_some read).trans rfl

theorem Mirrors.second {second : UInt32} {parts : List Immediate} {fine : Decoder α}
    (found : bulkImmediates? second = some parts)
    (skips : Mirrors (Immediate.skipAll parts) fine fun _ => ()) :
    Mirrors (skipSecond second) fine fun _ => () := by
  rw [skipSecond, found]
  exact skips

theorem Op.skips_extended : Mirrors (skipImmediates 0xfc) Op.decodeExtended fun _ => () := by
  have told : Mirrors (Leb128.u32 >>= skipSecond) Op.decodeExtended fun _ => () := by
    refine (Mirrors.refl Leb128.u32).bind fun second => ?_
    split
    case h_11 =>
      split
      · next operator found =>
        have small := (List.getElem?_eq_some_iff.mp found).1
        exact .second (if_pos (UInt32.le_iff_toNat_le.mpr (Nat.le_of_lt_succ small))) .skipNone
      · exact fun _ _ _ taken => nomatch taken
    all_goals first
      | exact .second rfl (.skipIndex fun _ => .skipNone)
      | exact .second rfl (.skipIndex fun _ => .skipIndex fun _ => .skipNone)
  intro bytes value rest taken
  obtain ⟨second, left, read, _⟩ := Decoder.bind_eq_some taken
  rw [skipImmediates_extended read, ← told bytes value rest taken]
  exact (Decoder.bind_of_eq_some read).symm

/-- What follows the first byte of a plain instruction is passed over. -/
theorem Op.skips (code : UInt8) : Mirrors (skipImmediates code) (Op.decode code) fun _ => () := by
  unfold Op.decode
  split
  case h_4 =>
    refine .immediates rfl rfl fun bytes op rest taken => ?_
    obtain ⟨_, _, read, taken⟩ := Decoder.bind_eq_some taken
    obtain ⟨_, left, required, taken⟩ := Decoder.bind_eq_some taken
    have one : Immediate.one.skip bytes = some ((), left) :=
      (Decoder.bind_of_eq_some read).trans required
    exact (Decoder.bind_of_eq_some one).trans
      (Mirrors.skipPart (.discard _) (fun _ => .skipNone) left op rest taken)
  all_goals first
    | exact .immediates rfl rfl .skipNone
    | exact .immediates rfl rfl (.skipIndex fun _ => .skipNone)
    | exact .immediates rfl rfl (.skipPart (.discard _) fun _ => .skipNone)
    | exact Op.skips_extended
    | exact Op.skips_listed _

/-! ## Constants -/

/-- What follows the first byte of a step of a constant is passed over. -/
theorem ConstantStep.skips (code : UInt8) :
    Mirrors (skipImmediates code) (ConstantStep.decode code) fun _ => () := by
  intro bytes step rest taken
  obtain ⟨op, left, plain, ends⟩ := Decoder.bind_eq_some taken
  rw [Op.skips code bytes op left plain]
  cases converted : ofOp? op with
  | none =>
    rw [converted] at ends
    cases ends
  | some step =>
    rw [converted] at ends
    cases ends
    rfl

theorem Constant.skipsFrom (fuel : ℕ) :
    Mirrors (skipExpressionFrom fuel) (Constant.decodeFrom fuel) fun _ => () := by
  induction fuel with
  | zero => exact fun _ _ _ taken => nomatch taken
  | succ fuel hypothesis =>
    refine (Mirrors.refl Decoder.byte).bind fun code => ?_
    dsimp only [id]
    split
    · exact Mirrors.pure rfl
    · exact (ConstantStep.skips code).bind fun step => hypothesis.map fun _ => rfl

theorem Constant.skips : Mirrors skipExpression Constant.decode fun _ => () :=
  fun bytes => Constant.skipsFrom (bytes.length + 1) bytes

end TableKernels.Wasm
