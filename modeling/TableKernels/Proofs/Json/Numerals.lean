import TableKernels.Proofs.Json.Tokens

/-!
# Reading numerals back

A numeral in its parts is read as just these parts, whatever ends it. Integers are written as digits
alone, and those that fit a 64-bit word are read back.
-/

namespace TableKernels.Json

/-- Digits and nothing else. -/
def IsDigits (text : List Char) : Prop := ∀ character ∈ text, isDigit character = true

/-- The parts of a written numeral after its sign; the power comes with its own. -/
structure Parts where
  whole : List Char
  fraction : List Char
  power : Option (Bool × List Char)

namespace Parts

/-- The text of a fraction, if there is one. -/
def fractionText (fraction : List Char) : List Char :=
  if fraction.isEmpty then [] else '.' :: fraction

/-- The text of a power of ten, if there is one. -/
def powerText : Option (Bool × List Char) → List Char
  | none => []
  | some power => 'e' :: (if power.1 then '-' else '+') :: power.2

/-- The text of a numeral after its sign. -/
def text (parts : Parts) : List Char :=
  parts.whole ++ (fractionText parts.fraction ++ powerText parts.power)

/-- The power of ten behind a numeral. -/
def power? (parts : Parts) : Option Int :=
  parts.power.map fun power =>
    if power.1 then -(spelled (power.2.map digitValue) : Int)
    else (spelled (power.2.map digitValue) : Int)

/-- The literal that a numeral is read as. -/
def literal (negative : Bool) (parts : Parts) : Literal :=
  ⟨negative, parts.whole.map digitValue, parts.fraction.map digitValue, parts.power?⟩

/-- Parts that a numeral can have: a zero stands alone before the point. -/
structure IsNumeral (parts : Parts) : Prop where
  whole : IsDigits parts.whole
  written : parts.whole ≠ []
  alone : parts.whole.head? = some '0' → parts.whole = ['0']
  fraction : IsDigits parts.fraction
  power : ∀ power ∈ parts.power, IsDigits power.2 ∧ power.2 ≠ []

end Parts

/-! ## Digits -/

section Follows

variable {rest : List Char}

theorem Follows.not_digit (follows : Follows rest) :
    ∀ first ∈ rest.head?, isDigit first = false := by
  intro first mem
  have ends := follows first mem
  simp only [continues, Bool.or_eq_false_iff] at ends
  exact ends.1.1.1

theorem Follows.not_point (follows : Follows rest) : ∀ first ∈ rest.head?, first ≠ '.' := by
  intro first mem
  have ends := follows first mem
  simp only [continues, Bool.or_eq_false_iff, beq_eq_false_iff_ne] at ends
  exact ends.1.1.2

theorem Follows.not_mark (follows : Follows rest) :
    ∀ first ∈ rest.head?, first ≠ 'e' ∧ first ≠ 'E' := by
  intro first mem
  have ends := follows first mem
  simp only [continues, Bool.or_eq_false_iff, beq_eq_false_iff_ne] at ends
  exact ⟨ends.1.2, ends.2⟩

end Follows

theorem takeDigits_append {digits rest : List Char} (all : IsDigits digits)
    (ends : ∀ first ∈ rest.head?, isDigit first = false) :
    takeDigits (digits ++ rest) = (digits.map digitValue, rest) := by
  have none : rest.takeWhile isDigit = [] ∧ rest.dropWhile isDigit = rest := by
    cases rest with
    | nil => exact ⟨rfl, rfl⟩
    | cons first rest =>
      have other := ends first rfl
      exact ⟨List.takeWhile_cons_of_neg (by simp [other]),
        List.dropWhile_cons_of_neg (by simp [other])⟩
  rw [takeDigits, List.takeWhile_append_of_pos all, List.dropWhile_append_of_pos all, none.1,
    none.2, List.append_nil]

theorem someDigits_append {digits rest : List Char} (all : IsDigits digits) (written : digits ≠ [])
    (ends : ∀ first ∈ rest.head?, isDigit first = false) :
    someDigits (digits ++ rest) = .ok (digits.map digitValue, rest) := by
  obtain ⟨first, others, rfl⟩ := List.exists_cons_of_ne_nil written
  have digit := all first (List.mem_cons_self ..)
  have taken := takeDigits_append all ends
  rw [List.cons_append] at taken ⊢
  simp only [someDigits, digit, if_true, taken]

theorem wholeDigits_append {digits rest : List Char} (all : IsDigits digits)
    (written : digits ≠ []) (alone : digits.head? = some '0' → digits = ['0'])
    (ends : ∀ first ∈ rest.head?, isDigit first = false) :
    wholeDigits (digits ++ rest) = .ok (digits.map digitValue, rest) := by
  have some := someDigits_append all written ends
  unfold wholeDigits
  split
  · next next others same =>
    have zero : digits.head? = Option.some '0' := by
      obtain ⟨first, digits, rfl⟩ := List.exists_cons_of_ne_nil written
      rw [List.cons_append, List.cons.injEq] at same
      rw [List.head?_cons, same.1]
    rw [alone zero, List.singleton_append, List.cons.injEq] at same
    have other := ends next (by rw [same.2]; rfl)
    rw [alone zero, if_neg (by simp [other]), same.2]
    rfl
  · exact some

theorem fractionDigits_append {fraction rest : List Char} (all : IsDigits fraction)
    (ends : ∀ first ∈ rest.head?, isDigit first = false)
    (point : ∀ first ∈ rest.head?, first ≠ '.') :
    fractionDigits (Parts.fractionText fraction ++ rest) =
      .ok (fraction.map digitValue, rest) := by
  unfold Parts.fractionText
  split
  · next none =>
    rw [List.isEmpty_iff.mp none]
    unfold fractionDigits
    split
    · next others same =>
      rw [List.nil_append] at same
      exact absurd rfl (point '.' (by rw [same]; rfl))
    · rfl
  · next some =>
    exact someDigits_append all (by simpa using some) ends

theorem signedPower_append {digits rest : List Char} (negative : Bool) (all : IsDigits digits)
    (written : digits ≠ []) (ends : ∀ first ∈ rest.head?, isDigit first = false) :
    signedPower ((if negative then '-' else '+') :: digits ++ rest) =
      .ok (if negative then -(spelled (digits.map digitValue) : Int)
        else (spelled (digits.map digitValue) : Int), rest) := by
  have some := someDigits_append all written ends
  cases negative
  · simp only [Bool.false_eq_true, if_false, List.cons_append, signedPower, some, Except.map]
  · simp only [if_true, List.cons_append, signedPower, some, Except.map]

theorem powerPart_append {parts : Parts} {rest : List Char} (numeral : parts.IsNumeral)
    (follows : Follows rest) :
    powerPart (Parts.powerText parts.power ++ rest) = .ok (parts.power?, rest) := by
  unfold Parts.power?
  cases same : parts.power with
  | none =>
    unfold powerPart
    split
    · next others starts => exact absurd rfl (follows.not_mark 'e' (by
        rw [Parts.powerText, List.nil_append] at starts
        rw [starts]
        rfl)).1
    · next others starts => exact absurd rfl (follows.not_mark 'E' (by
        rw [Parts.powerText, List.nil_append] at starts
        rw [starts]
        rfl)).2
    · rfl
  | some power =>
    obtain ⟨all, written⟩ := numeral.power power (by rw [same]; rfl)
    have signed := signedPower_append power.1 all written follows.not_digit
    simp only [Parts.powerText, List.cons_append, powerPart, Option.map_some] at signed ⊢
    rw [signed]
    rfl

/-- A numeral is read as its parts. -/
theorem readLiteral_text {parts : Parts} {rest : List Char} (negative : Bool)
    (numeral : parts.IsNumeral) (follows : Follows rest) :
    readLiteral negative (parts.text ++ rest) = .ok (parts.literal negative, rest) := by
  have afterFraction : ∀ first ∈ (Parts.powerText parts.power ++ rest).head?,
      isDigit first = false ∧ first ≠ '.' := by
    cases parts.power with
    | none => exact fun first mem => ⟨follows.not_digit first mem, follows.not_point first mem⟩
    | some power =>
      intro first mem
      cases mem
      decide
  have afterWhole : ∀ first ∈ (Parts.fractionText parts.fraction ++
      (Parts.powerText parts.power ++ rest)).head?, isDigit first = false := by
    unfold Parts.fractionText
    split
    · exact fun first mem => (afterFraction first mem).1
    · intro first mem
      cases mem
      decide
  have whole := wholeDigits_append numeral.whole numeral.written numeral.alone afterWhole
  have fraction := fractionDigits_append numeral.fraction
    (fun first mem => (afterFraction first mem).1) (fun first mem => (afterFraction first mem).2)
  simp only [readLiteral, Parts.text, List.append_assoc, whole, fraction,
    powerPart_append numeral follows, bind, Except.bind, pure, Except.pure]
  rfl

/-- A numeral with its sign is read as the number of its parts. -/
theorem readNumeral_text {parts : Parts} {rest : List Char} (negative : Bool)
    (numeral : parts.IsNumeral) (follows : Follows rest) :
    readNumeral ((if negative then ['-'] else []) ++ (parts.text ++ rest)) =
      (parts.literal negative).numeral.map (·, rest) := by
  have unsigned : readUnsigned negative (parts.text ++ rest) =
      (parts.literal negative).numeral.map (·, rest) := by
    rw [readUnsigned, readLiteral_text negative numeral follows]
    simp only [bind, Except.bind]
    cases (parts.literal negative).numeral <;> rfl
  cases negative
  · obtain ⟨first, digits, written⟩ := List.exists_cons_of_ne_nil numeral.written
    have digit := numeral.whole first (by rw [written]; exact List.mem_cons_self ..)
    have other : first ≠ '-' := by
      rintro rfl
      exact absurd digit (by decide)
    rw [if_neg Bool.false_ne_true, List.nil_append, ← unsigned]
    unfold readNumeral
    split
    · next others same =>
      rw [Parts.text, written, List.cons_append, List.cons_append, List.cons.injEq] at same
      exact absurd same.1 other
    · rfl
  · exact unsigned

/-! ## Natural numbers and integers -/

theorem isDigits_toDigits (number : ℕ) : IsDigits (Nat.toDigits 10 number) := by
  intro character mem
  have digit := Nat.isDigit_of_mem_toDigits (by decide) (by decide) mem
  simpa [isDigit, Char.isDigit, Char.le_def] using digit

theorem spelled_toDigits (number : ℕ) :
    spelled ((Nat.toDigits 10 number).map digitValue) = number := by
  have digits := Nat.ofDigitChars_ten_toDigits (n := number)
  rw [Nat.ofDigitChars_eq_foldl] at digits
  rw [spelled, List.foldl_map]
  exact digits

theorem head?_toDigits {number : ℕ} (pos : 0 < number) :
    (Nat.toDigits 10 number).head? ≠ some '0' := by
  induction number using Nat.strong_induction_on with
  | _ number hypothesis =>
    rw [Nat.toDigits_eq_if (by decide)]
    split
    · next small =>
      have digits : ∀ digit < 10, 0 < digit → some digit.digitChar ≠ some '0' := by decide
      exact digits number small pos
    · next large =>
      have some := Nat.toDigits_ne_nil (n := number / 10) (b := 10)
      rw [List.head?_append_of_ne_nil _ some]
      exact hypothesis (number / 10) (by omega) (by omega)

/-- The parts of the numeral of a natural number. -/
def naturalParts (number : ℕ) : Parts := ⟨Nat.toDigits 10 number, [], none⟩

theorem naturalParts_isNumeral (number : ℕ) : (naturalParts number).IsNumeral where
  whole := isDigits_toDigits number
  written := Nat.toDigits_ne_nil
  alone := by
    intro zero
    rcases Nat.eq_zero_or_pos number with rfl | pos
    · rfl
    · exact absurd zero (head?_toDigits pos)
  fraction := nofun
  power := nofun

theorem naturalParts_text (number : ℕ) : (naturalParts number).text = Nat.toDigits 10 number := by
  simp [naturalParts, Parts.text, Parts.fractionText, Parts.powerText]

theorem integerText_eq (value : ℤ) : integerText value =
    (if value < 0 then ['-'] else []) ++ Nat.toDigits 10 value.natAbs := by
  cases value with
  | ofNat number =>
    rw [if_neg (by simp), List.nil_append, Int.ofNat_eq_natCast, Int.natAbs_natCast]
    exact (congrArg String.toList Nat.toString_eq_ofList_toDigits).trans String.toList_ofList
  | negSucc number =>
    rw [if_pos (Int.negSucc_lt_zero number), Int.natAbs_negSucc]
    change ("-" ++ toString (number + 1)).toList = _
    rw [String.toList_append, Nat.toString_eq_ofList_toDigits]
    exact congrArg (['-'] ++ ·) String.toList_ofList

theorem readNumeral_integer {value : ℤ} {rest : List Char} (lower : -2 ^ 63 ≤ value)
    (upper : value < 2 ^ 64) (follows : Follows rest) :
    readNumeral (integerText value ++ rest) = .ok (.integer value, rest) := by
  have read := readNumeral_text (decide (value < 0)) (naturalParts_isNumeral value.natAbs) follows
  have word := spelled_toDigits value.natAbs
  have number : ((naturalParts value.natAbs).literal (decide (value < 0))).numeral =
      .ok (.integer value) := by
    have small : value.natAbs ≤ wordMax := by
      simp only [wordMax]
      omega
    simp only [Literal.numeral, Parts.literal, naturalParts, Parts.power?, word, List.map_nil,
      List.isEmpty_nil, Option.map_none, Option.isNone_none, Bool.and_self,
      decide_eq_true small, if_true]
    by_cases negative : value < 0
    · have within : ¬ (value.natAbs = 0 ∨ 0x8000000000000000 < value.natAbs) := by omega
      simp only [negative, decide_true, Bool.not_true, Bool.false_eq_true, if_false, within]
      exact congrArg (fun value => Except.ok (Numeral.integer value)) (by omega)
    · simp only [negative, decide_false, Bool.not_false, if_true]
      exact congrArg (fun value => Except.ok (Numeral.integer value)) (by omega)
  simp only [naturalParts_text, decide_eq_true_eq] at read
  rw [integerText_eq, List.append_assoc, read, number]
  rfl

theorem integerText_head (value : ℤ) : ∃ first text, integerText value = first :: text ∧
    (first = '-' ∨ isDigit first = true) := by
  rw [integerText_eq]
  split
  · exact ⟨_, _, rfl, .inl rfl⟩
  · obtain ⟨first, digits, written⟩ := List.exists_cons_of_ne_nil
      (Nat.toDigits_ne_nil (n := value.natAbs) (b := 10))
    refine ⟨first, digits, written, .inr (isDigits_toDigits value.natAbs first ?_)⟩
    rw [written]
    exact List.mem_cons_self ..

theorem isBlank_of_numeral {first : Char} (starts : first = '-' ∨ isDigit first = true) :
    isBlank first = false := by
  rcases starts with rfl | digit
  · decide
  · simp only [isDigit, Bool.and_eq_true, decide_eq_true_eq] at digit
    simp only [isBlank, Bool.or_eq_false_iff, beq_eq_false_iff_ne]
    refine ⟨⟨⟨?_, ?_⟩, ?_⟩, ?_⟩ <;> rintro rfl <;> exact absurd digit.1 (by decide)

theorem numeral_lead {lead text rest : List Char} {first : Char} (expected : String)
    (blanks : IsBlanks lead) (starts : first = '-' ∨ isDigit first = true)
    (written : text = first :: rest) :
    Reader.numeral expected (lead ++ text) = readNumeral text := by
  rw [written, Reader.numeral, skipBlanks_lead blanks (isBlank_of_numeral starts)]
  simp only [if_pos starts]

end TableKernels.Json
