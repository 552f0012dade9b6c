import TableKernels.Json.Record
import TableKernels.Proofs.Decimal.Parts

/-!
# Reading values back

`Takes` says what a reader makes of every spelling of a tree. Every codec without parts takes what it
writes for the value that was written; a number is taken for what its text is read as, which
`reread` names.
-/

namespace TableKernels.Json

open Decimal

variable {α β : Type}

/-- A reader makes the same of every spelling of a tree, whatever ends it. -/
def Takes (reader : Reader α) (tree : Json) (result : Except Fault α) : Prop :=
  ∀ text rest, Spells tree text → Follows rest → reader (text ++ rest) = result.map (·, rest)

/-- What the text of a number is read as. -/
def reread (number : Binary64) : Except Fault Binary64 :=
  Codec.float.parse (String.ofList (floatText number))

/-! ## The first character of a value -/

/-- Whether a value can begin with a character. -/
def opens (first : Char) : Bool :=
  first == quote || first == '-' || isDigit first || first == 'n' || first == 't' || first == 'f' ||
    first == '[' || first == '\x7b'

/-- No value begins with a blank or with what ends or separates values. -/
theorem opens_solid {first : Char} (opening : opens first = true) :
    isBlank first = false ∧ first ≠ ']' ∧ first ≠ '\x7d' ∧ first ≠ ',' := by
  have digit : isDigit first = true →
      isBlank first = false ∧ first ≠ ']' ∧ first ≠ '\x7d' ∧ first ≠ ',' := by
    intro digit
    refine ⟨isBlank_of_numeral (.inr digit), ?_, ?_, ?_⟩ <;>
      rintro rfl <;> exact absurd digit (by decide)
  simp only [opens, Bool.or_eq_true, beq_iff_eq] at opening
  rcases opening with (((((((rfl | rfl) | isDigit) | rfl) | rfl) | rfl) | rfl) | rfl)
  · decide
  · decide
  · exact digit isDigit
  · decide
  · decide
  · decide
  · decide
  · decide

theorem floatText_starts {number : Binary64} (finite : number.isFinite = true) :
    ∃ first text, floatText number = first :: text ∧ (first = '-' ∨ isDigit first = true) := by
  rw [floatText_eq finite]
  split
  · exact ⟨_, _, rfl, .inl rfl⟩
  · have numeral := floatParts_isNumeral number
    obtain ⟨first, others, written⟩ := List.exists_cons_of_ne_nil numeral.written
    have digit := numeral.whole first (by rw [written]; exact List.mem_cons_self ..)
    rw [List.nil_append, Parts.text, written]
    exact ⟨first, _, rfl, .inr digit⟩

theorem opens_of_numeral {first : Char} (starts : first = '-' ∨ isDigit first = true) :
    opens first = true := by
  rcases starts with rfl | digit
  · rfl
  · simp [opens, digit]

theorem token?_head {tree : Json} {text : List Char} (written : tree.token? = some text) :
    ∃ first rest, text = first :: rest ∧ opens first = true := by
  cases tree with
  | null => cases written; exact ⟨'n', _, rfl, rfl⟩
  | boolean value =>
    cases written
    cases value
    · exact ⟨'f', _, rfl, rfl⟩
    · exact ⟨'t', _, rfl, rfl⟩
  | integer value =>
    cases written
    obtain ⟨first, rest, same, starts⟩ := integerText_head value
    exact ⟨first, rest, same, opens_of_numeral starts⟩
  | float value =>
    cases written
    by_cases finite : value.isFinite = true
    · obtain ⟨first, rest, same, starts⟩ := floatText_starts finite
      exact ⟨first, rest, same, opens_of_numeral starts⟩
    · exact ⟨'n', ['u', 'l', 'l'], by rw [floatText, if_neg finite]; rfl, rfl⟩
  | string value => cases written; exact ⟨quote, _, rfl, rfl⟩
  | array items => cases written
  | object members => cases written

/-- Whether a tree is written as `null`. -/
def isNull : Json → Bool
  | null => true
  | float value => !value.isFinite
  | _ => false

theorem token?_head_n {tree : Json} {rest : List Char}
    (written : tree.token? = some ('n' :: rest)) :
    tree.isNull = true := by
  have numeral : ¬ ('n' = '-' ∨ isDigit 'n' = true) := by decide
  cases tree with
  | null => rfl
  | boolean value => cases value <;> cases written
  | integer value =>
    obtain ⟨first, text, same, starts⟩ := integerText_head value
    cases same.symm.trans (Option.some.inj written)
    exact absurd starts numeral
  | float value =>
    cases finite : value.isFinite with
    | true =>
      obtain ⟨first, text, same, starts⟩ := floatText_starts finite
      cases same.symm.trans (Option.some.inj written)
      exact absurd starts numeral
    | false => rw [isNull, finite, Bool.not_false]
  | string value => cases written
  | array items => cases written
  | object members => cases written

/-- A spelling is blanks followed by a spelling that begins with its value. -/
theorem Spells.head {tree : Json} {text : List Char} (spells : Spells tree text) :
    ∃ lead first rest, text = lead ++ first :: rest ∧ IsBlanks lead ∧ opens first = true ∧
      Spells tree (first :: rest) ∧ (first = 'n' → tree.isNull = true) := by
  cases spells with
  | token blanks written =>
    obtain ⟨first, rest, rfl, opening⟩ := token?_head written
    refine ⟨_, first, rest, rfl, blanks, opening, .ofToken written, ?_⟩
    rintro rfl
    exact token?_head_n written
  | array blanks parts => exact ⟨_, '[', _, rfl, blanks, rfl, .array isBlanks_nil parts, nofun⟩
  | object blanks parts =>
    exact ⟨_, '\x7b', _, rfl, blanks, rfl, .object isBlanks_nil parts, nofun⟩

/-! ## Values without parts -/

theorem takes_token {reader : Reader α} {tree : Json} {token : List Char} {result : Except Fault α}
    (written : tree.token? = some token)
    (read : ∀ lead rest, IsBlanks lead → Follows rest →
      reader (lead ++ (token ++ rest)) = result.map (·, rest)) : Takes reader tree result := by
  intro text rest spells follows
  cases spells with
  | token blanks written' =>
    cases Option.some.inj (written.symm.trans written')
    rw [List.append_assoc]
    exact read _ rest blanks follows
  | array blanks parts => cases written
  | object blanks parts => cases written

theorem takes_map {reader : Reader α} {tree : Json} {result : Except Fault α} (f : α → β)
    (takes : Takes reader tree result) : Takes (do return f (← reader)) tree (result.map f) := by
  intro text rest spells follows
  have read := takes text rest spells follows
  change Reader.bind reader _ _ = _
  rw [Reader.bind, read]
  cases result <;> rfl

theorem parse_of_takes {codec : Codec α} {tree : Json} {text : List Char}
    {result : Except Fault α} (takes : Takes codec.read tree result) (spells : Spells tree text) :
    codec.parse (String.ofList text) = result := by
  have read := takes text [] spells follows_nil
  rw [List.append_nil] at read
  rw [Codec.parse, Reader.run, String.toList_ofList]
  simp only [read]
  cases result <;> rfl

theorem takes_stringFor (expected text : String) :
    Takes (Reader.stringFor expected) (.string text) (.ok text) := by
  refine takes_token rfl fun lead rest blanks _ => ?_
  rw [quoted_append, Reader.stringFor, skipBlanks_lead blanks (by decide)]
  simp only [if_true, readQuoted_quoted]
  rfl

theorem takes_string (text : String) : Takes Codec.string.read (.string text) (.ok text) :=
  takes_stringFor _ text

theorem takes_boolean (value : Bool) : Takes Codec.boolean.read (.boolean value) (.ok value) := by
  refine takes_token rfl fun lead rest blanks _ => ?_
  cases value
  · change Reader.boolean (lead ++ 'f' :: ('a' :: 'l' :: 's' :: 'e' :: rest)) = _
    rw [Reader.boolean, skipBlanks_lead blanks (by decide)]
    rfl
  · change Reader.boolean (lead ++ 't' :: ('r' :: 'u' :: 'e' :: rest)) = _
    rw [Reader.boolean, skipBlanks_lead blanks (by decide)]
    rfl

theorem takes_integer {expected : String} {least greatest value : ℤ} (lower : -2 ^ 63 ≤ least)
    (upper : greatest < 2 ^ 64) (least_le : least ≤ value) (le_greatest : value ≤ greatest) :
    Takes (Reader.integer expected least greatest) (.integer value) (.ok value) := by
  refine takes_token rfl fun lead rest blanks follows => ?_
  obtain ⟨first, text, written, starts⟩ := integerText_head value
  have read := readNumeral_integer (lower.trans least_le) (le_greatest.trans_lt upper) follows
  have numeral := numeral_lead expected blanks starts
    (show integerText value ++ rest = first :: (text ++ rest) by rw [written]; rfl)
  change Reader.bind (Reader.numeral expected) _ _ = _
  rw [Reader.bind, numeral, read]
  simp only [least_le, le_greatest, and_self, if_true]
  rfl

theorem takes_int32 (value : Int32) :
    Takes Codec.int32.read (.integer value.toInt) (.ok value) := by
  have whole : Takes (Reader.integer "i32" Int32.minValue.toInt Int32.maxValue.toInt)
      (.integer value.toInt) (.ok value.toInt) :=
    takes_integer (by decide) (by decide) value.minValue_le_toInt value.toInt_le
  have read := takes_map Int32.ofInt whole
  rwa [Except.map, Int32.ofInt_toInt] at read

theorem takes_int64 (value : Int64) :
    Takes Codec.int64.read (.integer value.toInt) (.ok value) := by
  have whole : Takes (Reader.integer "i64" Int64.minValue.toInt Int64.maxValue.toInt)
      (.integer value.toInt) (.ok value.toInt) :=
    takes_integer (by decide) (by decide) value.minValue_le_toInt value.toInt_le
  have read := takes_map Int64.ofInt whole
  rwa [Except.map, Int64.ofInt_toInt] at read

theorem takes_uint32 (value : UInt32) :
    Takes Codec.uint32.read (.integer value.toNat) (.ok value) := by
  have small := value.toNat_lt
  have whole : Takes (Reader.integer "u32" 0 0xffffffff) (.integer value.toNat)
      (.ok (value.toNat : ℤ)) :=
    takes_integer (by decide) (by decide) (by omega) (by omega)
  have read := takes_map (fun number : ℤ => UInt32.ofNat number.toNat) whole
  rwa [Except.map, Int.toNat_natCast, UInt32.ofNat_toNat] at read

theorem takes_uint64 (expected : String) (value : UInt64) :
    Takes (Codec.uint64 expected).read (.integer value.toNat) (.ok value) := by
  have small := value.toNat_lt
  have whole : Takes (Reader.integer expected 0 0xffffffffffffffff) (.integer value.toNat)
      (.ok (value.toNat : ℤ)) :=
    takes_integer (by decide) (by decide) (by omega) (by omega)
  have read := takes_map (fun number : ℤ => UInt64.ofNat number.toNat) whole
  rwa [Except.map, Int.toNat_natCast, UInt64.ofNat_toNat] at read

/-! ## Numbers -/

/-- The float that a numeral is read as. -/
def Numeral.toFloat : Numeral → Binary64
  | .integer value => .ofInt value
  | .float value => value

variable {number : Binary64}

theorem takes_parts (finite : number.isFinite = true) : Takes Codec.float.read (.float number)
    (((floatParts number).literal number.isNegative).numeral.map Numeral.toFloat) := by
  refine takes_token rfl fun lead rest blanks follows => ?_
  obtain ⟨first, text, written, starts⟩ := floatText_starts finite
  have read := readNumeral_text number.isNegative (floatParts_isNumeral number) follows
  rw [← List.append_assoc, ← floatText_eq finite] at read
  have numeral := numeral_lead "f64" blanks starts
    (show floatText number ++ rest = first :: (text ++ rest) by rw [written]; rfl)
  change Reader.bind (Reader.numeral "f64") _ _ = _
  rw [Reader.bind, numeral, read]
  cases ((floatParts number).literal number.isNegative).numeral with
  | error fault => rfl
  | ok numeral => cases numeral <;> rfl

theorem reread_eq (finite : number.isFinite = true) : reread number =
    ((floatParts number).literal number.isNegative).numeral.map Numeral.toFloat :=
  parse_of_takes (takes_parts finite) (.ofToken rfl)

/-- A finite number is taken for what its text is read as. -/
theorem takes_float (finite : number.isFinite = true) :
    Takes Codec.float.read (.float number) (reread number) := by
  rw [reread_eq finite]
  exact takes_parts finite

end TableKernels.Json
