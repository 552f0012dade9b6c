import TableKernels.Json.Reader
import TableKernels.Proofs.Json.Spelling

/-!
# Reading tokens back

Strings, truth values, integers and nulls are read back from their text, with any blanks in front
and anything after them that does not go on with a numeral.
-/

namespace TableKernels.Json

/-- Whether a numeral could go on with a character. -/
def continues (character : Char) : Bool :=
  isDigit character || character == '.' || character == 'e' || character == 'E'

/-- A text at which a numeral in front of it ends. -/
def Follows (rest : List Char) : Prop := ∀ first ∈ rest.head?, continues first = false

theorem follows_nil : Follows [] := nofun

theorem follows_cons {first : Char} {rest : List Char} (ends : continues first = false) :
    Follows (first :: rest) := by
  intro other mem
  cases mem
  exact ends

/-! ## Blanks -/

theorem skipBlanks_append {lead text : List Char} (blanks : IsBlanks lead) :
    skipBlanks (lead ++ text) = skipBlanks text := by
  rw [skipBlanks, List.dropWhile_append_of_pos blanks, skipBlanks]

theorem skipBlanks_cons {first : Char} {rest : List Char} (solid : isBlank first = false) :
    skipBlanks (first :: rest) = first :: rest := by
  rw [skipBlanks, List.dropWhile_cons, solid]
  rfl

theorem skipBlanks_lead {lead rest : List Char} {first : Char} (blanks : IsBlanks lead)
    (solid : isBlank first = false) : skipBlanks (lead ++ first :: rest) = first :: rest := by
  rw [skipBlanks_append blanks, skipBlanks_cons solid]

/-! ## Readers in a row -/

section Bind

variable {α β : Type} {first : Reader α} {next : α → Reader β} {text rest : List Char}

theorem Reader.bind_of_ok {value : α} (read : first text = .ok (value, rest)) :
    Reader.bind first next text = next value rest := by
  rw [Reader.bind, read]

theorem Reader.bind_of_error {fault : Fault} (refused : first text = .error fault) :
    Reader.bind first next text = .error fault := by
  rw [Reader.bind, refused]

end Bind

theorem colon_passed {lead : List Char} (blanks : IsBlanks lead) (rest : List Char) :
    Reader.colon (lead ++ ':' :: rest) = .ok ((), rest) := by
  rw [Reader.colon, skipBlanks_lead blanks (by decide)]
  rfl

/-! ## Strings -/

theorem hexUnit?_control : ∀ unit < 32,
    hexUnit? '0' '0' (hexDigit (unit / 16)) (hexDigit (unit % 16)) = some unit := by
  decide

theorem readUnicode_control {character : Char} (control : character.toNat < 32)
    (rest : List Char) :
    readUnicode ('0' :: '0' :: hexDigit (character.toNat / 16) ::
      hexDigit (character.toNat % 16) :: rest) = .ok (character, rest) := by
  have unit := hexUnit?_control _ control
  have trailing : isTrailing character.toNat = false := by
    simp only [isTrailing, Bool.and_eq_false_iff, decide_eq_false_iff_not]
    omega
  have leading : isLeading character.toNat = false := by
    simp only [isLeading, Bool.and_eq_false_iff, decide_eq_false_iff_not]
    omega
  simp only [readUnicode, readUnit, unit, bind, Except.bind, trailing, leading, Bool.false_eq_true,
    if_false, pure, Except.pure, Char.ofNat_toNat]

theorem readQuotedFrom_escape (character : Char) (fuel : ℕ) (gathered rest : List Char) :
    readQuotedFrom (fuel + 1) gathered (escape character ++ rest) =
      readQuotedFrom fuel (character :: gathered) rest := by
  have plain (letter : Char) (same : plainEscape? letter = some character) :
      readQuotedFrom (fuel + 1) gathered ([backslash, letter] ++ rest) =
        readQuotedFrom fuel (character :: gathered) rest := by
    have other : ¬ backslash = quote := by decide
    simp only [List.cons_append, List.nil_append, readQuotedFrom, if_neg other, if_true, readEscape,
      same]
  unfold escape
  split_ifs with isQuote isBackslash isBack isFeed isLine isReturn isTab control
  · exact plain _ (by rw [isQuote]; rfl)
  · exact plain _ (by rw [isBackslash]; rfl)
  · exact plain _ (by rw [isBack]; rfl)
  · exact plain _ (by rw [isFeed]; rfl)
  · exact plain _ (by rw [isLine]; rfl)
  · exact plain _ (by rw [isReturn]; rfl)
  · exact plain _ (by rw [isTab]; rfl)
  · have other : ¬ backslash = quote := by decide
    have unicode : plainEscape? 'u' = none := by decide
    simp only [List.cons_append, List.nil_append, readQuotedFrom, if_neg other, if_true, readEscape,
      unicode, readUnicode_control control]
  · simp only [List.cons_append, List.nil_append, readQuotedFrom, if_neg isQuote,
      if_neg isBackslash, if_neg control]

theorem length_escape_pos (character : Char) : 1 ≤ (escape character).length := by
  unfold escape
  split_ifs <;> simp

theorem readQuotedFrom_escapes (text : List Char) (fuel : ℕ) (gathered rest : List Char)
    (enough : text.length < fuel) :
    readQuotedFrom fuel gathered (text.flatMap escape ++ quote :: rest) =
      .ok (text.reverse ++ gathered, rest) := by
  induction text generalizing fuel gathered with
  | nil =>
    obtain ⟨fuel, rfl⟩ := Nat.exists_eq_add_of_lt enough
    rfl
  | cons character text hypothesis =>
    rw [List.length_cons] at enough
    obtain ⟨fuel, rfl⟩ := Nat.exists_eq_add_of_le' (by omega : 1 ≤ fuel)
    rw [List.flatMap_cons, List.append_assoc, readQuotedFrom_escape, hypothesis _ _ (by omega),
      List.reverse_cons, List.append_assoc, List.singleton_append]

/-- A string is read back after its opening quote. -/
theorem readQuoted_quoted (text : String) (rest : List Char) :
    readQuoted (text.toList.flatMap escape ++ quote :: rest) = .ok (text, rest) := by
  have enough : text.toList.length <
      (text.toList.flatMap escape ++ quote :: rest).length + 1 := by
    have length : text.toList.length ≤ (text.toList.flatMap escape).length := by
      induction text.toList with
      | nil => exact le_refl 0
      | cons character characters hypothesis =>
        have one := length_escape_pos character
        rw [List.flatMap_cons, List.length_append, List.length_cons]
        omega
    rw [List.length_append]
    omega
  rw [readQuoted, readQuotedFrom_escapes _ _ _ _ enough, List.append_nil]
  simp only [Except.map, List.reverse_reverse, String.ofList_toList]

theorem quoted_append (text : String) (rest : List Char) :
    quoted text ++ rest = quote :: (text.toList.flatMap escape ++ quote :: rest) := by
  simp [quoted]

end TableKernels.Json
