import Mathlib
import TableKernels.Wasm.Evaluation
import TableKernels.Wasm.Typing

/-!
# Types of operands

What the check of a body knows about its operands holds of the words on the stack while every
instruction falls through. Where the check lets operands be exchanged for others, the words that are
taken are on the stack, and words of the other types may be left. An operator that is given words of
its types evaluates to a word of its type, or traps.
-/

namespace TableKernels.Wasm

/-! ## Operands that are known -/

namespace Operands

/-- Operands that are all known: those of a stack. -/
def ofWords (stack : List Word) : Operands := ⟨stack.map fun word => some word.type, false⟩

variable {stack rest words : List Word} {type : ValType} {types taken left : List ValType}
  {after : Operands}

theorem popAny?_ofWords {latest : Option ValType}
    (popped : (ofWords stack).popAny? = some (latest, after)) :
    ∃ word rest, stack = word :: rest ∧ latest = some word.type ∧ after = ofWords rest := by
  cases stack with
  | nil => cases popped
  | cons word rest =>
    cases popped
    exact ⟨word, rest, rfl, rfl, rfl⟩

theorem pop?_ofWords (popped : (ofWords stack).pop? type = some after) :
    ∃ word rest, stack = word :: rest ∧ word.type = type ∧ after = ofWords rest := by
  obtain ⟨⟨latest, operands⟩, first, popped⟩ := Option.bind_eq_some_iff.mp popped
  obtain ⟨word, rest, rfl, rfl, rfl⟩ := popAny?_ofWords first
  dsimp only at popped
  split at popped
  · next same =>
    cases popped
    exact ⟨word, rest, rfl, by simpa using same, rfl⟩
  · cases popped

theorem pop?_cons (word : Word) (rest : List Word) :
    (ofWords (word :: rest)).pop? word.type = some (ofWords rest) := by
  simp [pop?, popAny?, ofWords]

theorem foldlM_pop?_ofWords (popped : types.foldlM pop? (ofWords stack) = some after) :
    ∃ words rest : List Word, stack = words ++ rest ∧ words.map Word.type = types ∧
      after = ofWords rest := by
  induction types generalizing stack with
  | nil => exact ⟨[], stack, rfl, rfl, (Option.some.inj popped).symm⟩
  | cons type types hypothesis =>
    obtain ⟨one, first, others⟩ := Option.bind_eq_some_iff.mp (by simpa using popped)
    obtain ⟨word, behind, rfl, rfl, rfl⟩ := pop?_ofWords first
    obtain ⟨words, rest, rfl, rfl, rfl⟩ := hypothesis others
    exact ⟨word :: words, rest, rfl, rfl, rfl⟩

theorem popAll?_ofWords (popped : (ofWords stack).popAll? types = some after) :
    ∃ words rest : List Word, stack = words.reverse ++ rest ∧ words.map Word.type = types ∧
      after = ofWords rest := by
  obtain ⟨words, rest, rfl, typed, rfl⟩ := foldlM_pop?_ofWords popped
  refine ⟨words.reverse, rest, by rw [List.reverse_reverse], ?_, rfl⟩
  rw [List.map_reverse, typed, List.reverse_reverse]

theorem pushAll_ofWords (words rest : List Word) :
    (ofWords rest).pushAll (words.map Word.type) = ofWords (words.reverse ++ rest) := by
  induction words generalizing rest with
  | nil => rfl
  | cons word words hypothesis =>
    rw [List.reverse_cons, List.append_assoc]
    exact hypothesis (word :: rest)

/-- An exchange of operands takes words of the given types, and words of the others may be left. -/
theorem exchange?_ofWords (exchanged : (ofWords stack).exchange? taken left = some after) :
    ∃ words rest : List Word, stack = words.reverse ++ rest ∧ words.map Word.type = taken ∧
      ∀ results : List Word, results.map Word.type = left →
        after = ofWords (results.reverse ++ rest) := by
  obtain ⟨between, popped, rfl⟩ := Option.map_eq_some_iff.mp exchanged
  obtain ⟨words, rest, rfl, typed, rfl⟩ := popAll?_ofWords popped
  refine ⟨words, rest, rfl, typed, ?_⟩
  rintro results rfl
  exact pushAll_ofWords results rest

theorem popAll?_reverse_append (words rest : List Word) :
    (ofWords (words.reverse ++ rest)).popAll? (words.map Word.type) = some (ofWords rest) := by
  have popped (words : List Word) :
      (words.map Word.type).foldlM pop? (ofWords (words ++ rest)) = some (ofWords rest) := by
    induction words with
    | nil => rfl
    | cons word words hypothesis =>
      rw [List.map_cons, List.foldlM_cons]
      exact Option.bind_eq_some_iff.mpr ⟨ofWords (words ++ rest), pop?_cons _ _, hypothesis⟩
  rw [popAll?, ← List.map_reverse]
  exact popped words.reverse

theorem exchange?_reverse_append (words rest : List Word) (left : List ValType) :
    (ofWords (words.reverse ++ rest)).exchange? (words.map Word.type) left =
      some ((ofWords rest).pushAll left) := by
  rw [exchange?, popAll?_reverse_append]
  rfl

theorem exchange?_nil (words : List Word)
    (exchanged : (ofWords stack).exchange? [] left = some after)
    (typed : words.map Word.type = left) : after = ofWords (words.reverse ++ stack) := by
  obtain ⟨none, rest, rfl, empty, leaves⟩ := exchange?_ofWords exchanged
  cases List.map_eq_nil_iff.mp empty
  exact leaves words typed

theorem exchange?_one (exchanged : (ofWords stack).exchange? [type] left = some after) :
    ∃ word rest, stack = word :: rest ∧ word.type = type ∧
      ∀ results : List Word, results.map Word.type = left →
        after = ofWords (results.reverse ++ rest) := by
  obtain ⟨words, rest, rfl, typed, leaves⟩ := exchange?_ofWords exchanged
  obtain ⟨word, rfl, rfl⟩ := List.map_eq_singleton_iff.mp typed
  exact ⟨word, rest, rfl, rfl, leaves⟩

theorem exchange?_two {second : ValType}
    (exchanged : (ofWords stack).exchange? [type, second] left = some after) :
    ∃ below word rest, stack = word :: below :: rest ∧ below.type = type ∧ word.type = second ∧
      ∀ results : List Word, results.map Word.type = left →
        after = ofWords (results.reverse ++ rest) := by
  obtain ⟨words, rest, rfl, typed, leaves⟩ := exchange?_ofWords exchanged
  obtain ⟨below, words, rfl, rfl, others⟩ := List.map_eq_cons_iff.mp typed
  obtain ⟨word, rfl, rfl⟩ := List.map_eq_singleton_iff.mp others
  exact ⟨below, word, rest, rfl, rfl, rfl, leaves⟩

theorem exchange?_three {second third : ValType}
    (exchanged : (ofWords stack).exchange? [type, second, third] left = some after) :
    ∃ lowest below word rest, stack = word :: below :: lowest :: rest ∧ lowest.type = type ∧
      below.type = second ∧ word.type = third ∧
      ∀ results : List Word, results.map Word.type = left →
        after = ofWords (results.reverse ++ rest) := by
  obtain ⟨words, rest, rfl, typed, leaves⟩ := exchange?_ofWords exchanged
  obtain ⟨lowest, two, rfl, rfl, others⟩ := List.map_eq_cons_iff.mp typed
  obtain ⟨below, one, rfl, rfl, latest⟩ := List.map_eq_cons_iff.mp others
  obtain ⟨word, rfl, rfl⟩ := List.map_eq_singleton_iff.mp latest
  exact ⟨lowest, below, word, rest, rfl, rfl, rfl, rfl, leaves⟩

/-- The choice between two words leaves one of their type. -/
theorem choose?_ofWords (chosen : (ofWords stack).choose? = some after) :
    ∃ condition second first rest, stack = .i32 condition :: second :: first :: rest ∧
      second.type = first.type ∧ after = ofWords (first :: rest) := by
  obtain ⟨operands, popped, others⟩ := Option.bind_eq_some_iff.mp chosen
  obtain ⟨condition, rest, rfl, same, rfl⟩ := pop?_ofWords popped
  obtain ⟨⟨latest, operands⟩, popped, others⟩ := Option.bind_eq_some_iff.mp others
  obtain ⟨second, rest, rfl, rfl, rfl⟩ := popAny?_ofWords popped
  obtain ⟨⟨latest, operands⟩, popped, picked⟩ := Option.bind_eq_some_iff.mp others
  obtain ⟨first, rest, rfl, rfl, rfl⟩ := popAny?_ofWords popped
  cases condition <;> cases same
  dsimp only at picked
  split at picked
  · next same =>
    cases picked
    exact ⟨_, second, first, rest, rfl, by simpa using same.2, rfl⟩
  · cases picked

theorem test?_ofWords (tested : (ofWords stack).test? = some after) :
    ∃ word rest, stack = word :: rest ∧ after = (ofWords rest).push .i32 := by
  obtain ⟨⟨latest, operands⟩, popped, tested⟩ := Option.bind_eq_some_iff.mp tested
  obtain ⟨word, rest, rfl, rfl, rfl⟩ := popAny?_ofWords popped
  dsimp only at tested
  split at tested
  · exact ⟨word, rest, rfl, (Option.some.inj tested).symm⟩
  · cases tested

/-- Operands that are exactly some words have the types of the words. -/
theorem areExactly_ofWords (exact : (ofWords stack).areExactly types = true) :
    stack.map Word.type = types.reverse := by
  rw [areExactly] at exact
  split at exact
  · next rest popped =>
    obtain ⟨words, rest, rfl, rfl, rfl⟩ := popAll?_ofWords popped
    obtain rfl : rest = [] := List.map_eq_nil_iff.mp (List.isEmpty_iff.mp exact)
    rw [List.append_nil, List.map_reverse]
  · cases exact

end Operands

/-! ## Operators -/

/-- An evaluation gives a word of the type, or it traps. -/
def Evaluation.IsTyped (type : ValType) : Evaluation → Prop
  | .result word => word.type = type
  | .trap _ => True
  | .stuck => False

theorem divide32_isTyped (left right : Int32) : (divide32 left right).IsTyped .i32 := by
  unfold divide32
  split
  · trivial
  · split
    · trivial
    · rfl

theorem divide64_isTyped (left right : Int64) : (divide64 left right).IsTyped .i64 := by
  unfold divide64
  split
  · trivial
  · split
    · trivial
    · rfl

theorem Evaluation.unlessZero_isTyped {type : ValType} {word : Word} (isZero : Bool)
    (typed : word.type = type) : (Evaluation.unlessZero isZero word).IsTyped type := by
  cases isZero
  · exact typed
  · trivial

theorem IntOperation.apply32_isTyped (operation : IntOperation) (left right : UInt32) :
    (operation.apply32 left right).IsTyped .i32 := by
  cases operation with
  | divS => exact divide32_isTyped _ _
  | divU | remS | remU => exact Evaluation.unlessZero_isTyped _ rfl
  | _ => rfl

theorem IntOperation.apply64_isTyped (operation : IntOperation) (left right : UInt64) :
    (operation.apply64 left right).IsTyped .i64 := by
  cases operation with
  | divS => exact divide64_isTyped _ _
  | divU | remS | remU => exact Evaluation.unlessZero_isTyped _ rfl
  | _ => rfl

namespace Word

theorem type_ofFloat (width : Width) (bits : ℕ) : (ofFloat width bits).type = width.float := by
  cases width <;> rfl

theorem type_ofInt (width : Width) (value : ℤ) : (ofInt width value).type = width.int := by
  cases width <;> rfl

theorem exists_float {width : Width} {word : Word} (typed : word.type = width.float) :
    ∃ bits, word.float? width = some bits := by
  cases width <;> cases word <;> cases typed <;> exact ⟨_, rfl⟩

theorem exists_int {width : Width} {word : Word} (signed : Bool) (typed : word.type = width.int) :
    ∃ value, word.int? width signed = some value := by
  cases width <;> cases word <;> cases typed <;> cases signed <;> exact ⟨_, rfl⟩

end Word

theorem Evaluation.ofTruncation_isTyped (width : Width) (truncation : Truncation) :
    (Evaluation.ofTruncation width truncation).IsTyped width.int := by
  cases truncation with
  | integer value => exact Word.type_ofInt width value
  | beyond | nan => trivial

theorem SignedPart.apply_isTyped (part : SignedPart) {word : Word}
    (typed : word.type = Operator.partType part) :
    (part.apply word).IsTyped (Operator.partType part) := by
  cases part <;> cases word <;> cases typed <;> rfl

namespace Operator

variable {operator : Operator}

theorem apply1_isTyped {word : Word} (unary : operator.isUnary = true)
    (typed : word.type = operator.operand) :
    (operator.apply1 word).IsTyped operator.result := by
  cases operator with
  | compare | compareFloat | combine | combineFloat => cases unary
  | isZero width | count width | toBits width | ofBits width =>
    cases width <;> cases word <;> cases typed <;> rfl
  | wrap | demote | promote =>
    cases word <;> cases typed
    rfl
  | extend signed =>
    cases word <;> cases typed
    cases signed <;> rfl
  | extendPart part => exact part.apply_isTyped typed
  | changeFloat width change =>
    obtain ⟨bits, same⟩ := Word.exists_float typed
    simp only [apply1, same, Evaluation.ofOption]
    exact Word.type_ofFloat _ _
  | truncate width source signed =>
    obtain ⟨bits, same⟩ := Word.exists_float typed
    simp only [apply1, same, Evaluation.ofOption]
    exact Evaluation.ofTruncation_isTyped _ _
  | saturate width source signed =>
    obtain ⟨bits, same⟩ := Word.exists_float typed
    simp only [apply1, same, Evaluation.ofOption]
    exact Word.type_ofInt _ _
  | convert width source signed =>
    obtain ⟨value, same⟩ := Word.exists_int signed typed
    simp only [apply1, same, Evaluation.ofOption]
    exact Word.type_ofFloat _ _

theorem apply2_isTyped {left right : Word} (binary : operator.isUnary = false)
    (first : left.type = operator.operand) (second : right.type = operator.operand) :
    (operator.apply2 left right).IsTyped operator.result := by
  cases operator with
  | combine width operation =>
    cases width <;> cases left <;> cases first <;> cases right <;> cases second
    · exact operation.apply32_isTyped _ _
    · exact operation.apply64_isTyped _ _
  | compare width relation =>
    cases width <;> cases left <;> cases first <;> cases right <;> cases second <;> rfl
  | combineFloat width operation =>
    obtain ⟨bits, same⟩ := Word.exists_float first
    obtain ⟨bits', same'⟩ := Word.exists_float second
    simp only [apply2, same, same', Evaluation.ofOption]
    exact Word.type_ofFloat _ _
  | compareFloat width relation =>
    obtain ⟨bits, same⟩ := Word.exists_float first
    obtain ⟨bits', same'⟩ := Word.exists_float second
    simp only [apply2, same, same', Evaluation.ofOption]
    rfl
  | _ => cases binary

end Operator

end TableKernels.Wasm
