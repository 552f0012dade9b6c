import Mathlib
import TableKernels.Wasm.Text.Token

/-!
# Reading tokens

What the tokens of a text are, told for each way to write one. A run of letters goes as far as it
can, so a word or a name has to be set apart from what follows it; a string may contain any bytes,
each of which may be written as an escape.
-/

namespace TableKernels.Wasm.Text

namespace Token

/-- Blanks and nothing else. -/
def AreBlanks (text : List Char) : Prop := ∀ character ∈ text, isBlank character = true

/-- A text that does not go on with the run in front of it. -/
def IsApart (text : List Char) : Prop :=
  ∀ first ∈ text.head?, isLetter first = false ∧ first ≠ '\x22'

/--
A text that leaves an opening parenthesis in front of it what it is, and that does not begin like a
module in bytes.
-/
def IsPlainStart (text : List Char) : Prop :=
  ∀ first ∈ text.head?, first ≠ ';' ∧ first ≠ '@' ∧ first ≠ '\x00'

/-- The letters of a word. -/
structure IsWord (letters : List Char) : Prop where
  nonempty : letters ≠ []
  spelled : ∀ character ∈ letters, isLetter character = true
  /-- A mark at the beginning would make it a name or the kind of an annotation. -/
  unmarked : ∀ first ∈ letters.head?, first ≠ '$' ∧ first ≠ '@'

/-- A text between quotes spells bytes: by characters that stand for themselves, and by escapes. -/
inductive SpellsBytes : Bytes → List Char → Prop
  | nil : SpellsBytes [] []
  | plain {character : Char} {content : Bytes} {text : List Char}
      (unquoted : character ≠ '\x22' ∧ character ≠ '\x5c')
      (printed : 0x20 ≤ character.toNat ∧ character.toNat ≠ 0x7f) (plain : isPlain character = true)
      (others : SpellsBytes content text) :
      SpellsBytes (bytesOf character ++ content) (character :: text)
  | escape {high low : Char} {upper lower : ℕ} {content : Bytes} {text : List Char}
      (first : Text.hexValue? high = some upper) (second : Text.hexValue? low = some lower)
      (others : SpellsBytes content text) :
      SpellsBytes (UInt8.ofNat (16 * upper + lower) :: content) ('\x5c' :: high :: low :: text)

/-- The tokens of a text; they are read with any fuel that its characters allow for. -/
def ReadsAs (text : List Char) (tokens : List Token) : Prop :=
  ∀ fuel before, text.length ≤ fuel →
    readAllFrom fuel before text = some (tokens.reverse ++ before)

/-! ## Characters -/

theorem isApart_nil : IsApart [] := nofun

theorem IsApart.append {first second : List Char} (left : IsApart first) (right : IsApart second) :
    IsApart (first ++ second) := by
  cases first with
  | nil => exact right
  | cons character rest => exact left

theorem isApart_cons {character : Char} {rest : List Char} (letter : isLetter character = false)
    (quote : character ≠ '\x22') : IsApart (character :: rest) := by
  intro first mem
  cases mem
  exact ⟨letter, quote⟩

theorem isPlainStart_nil : IsPlainStart [] := nofun

theorem isPlainStart_cons {character : Char} {rest : List Char} (plain : character ≠ ';')
    (unmarked : character ≠ '@') (printed : character ≠ '\x00') :
    IsPlainStart (character :: rest) := by
  intro first mem
  cases mem
  exact ⟨plain, unmarked, printed⟩

theorem isLetter_of_isBlank {character : Char} (blank : isBlank character = true) :
    isLetter character = false := by
  simp only [isBlank, Bool.or_eq_true, decide_eq_true_eq, or_assoc] at blank
  rcases blank with rfl | rfl | rfl | rfl <;> decide

theorem ne_of_isLetter {character other : Char} (letter : isLetter character = true)
    (plain : isLetter other = false) : character ≠ other := by
  rintro rfl
  rw [plain] at letter
  cases letter

theorem ne_of_isBlank {character other : Char} (blank : isBlank character = true)
    (solid : isBlank other = false) : character ≠ other := by
  rintro rfl
  rw [solid] at blank
  cases blank

theorem isApart_blank {character : Char} {rest : List Char} (blank : isBlank character = true) :
    IsApart (character :: rest) :=
  isApart_cons (isLetter_of_isBlank blank) (ne_of_isBlank blank (by decide))

/-! ## Blanks and parentheses -/

theorem readsAs_nil : ReadsAs [] [] := by
  intro fuel before _
  cases fuel <;> rfl

/-- What begins with none of three characters is neither a comment nor a parenthesis. -/
theorem readAllFrom_cons {character : Char} (fuel : ℕ) (before : List Token) (rest : List Char)
    (semicolon : character ≠ ';') (opened : character ≠ '(') (closed : character ≠ ')') :
    readAllFrom (fuel + 1) before (character :: rest) =
      if isBlank character then readAllFrom fuel before rest
      else if isVoid character then readAllFrom fuel (void :: before) rest
      else if character = '\x22' || isLetter character then
        match readRun (fuel + 1) (character :: rest) with
        | some (pieces, rest) => readAllFrom fuel (ofPieces pieces :: before) rest
        | none => none
      else none := by
  exact readAllFrom.eq_8 before fuel character rest (fun _ same _ => semicolon same)
    (fun _ same _ => opened same) (fun _ same _ => opened same) opened closed

theorem ReadsAs.blank {character : Char} {text : List Char} {tokens : List Token}
    (reads : ReadsAs text tokens) (blank : isBlank character = true) :
    ReadsAs (character :: text) tokens := by
  intro fuel before enough
  obtain ⟨fuel, rfl⟩ := Nat.exists_eq_add_of_le' (Nat.one_le_of_lt enough)
  rw [readAllFrom_cons fuel before text (ne_of_isBlank blank (by decide))
    (ne_of_isBlank blank (by decide)) (ne_of_isBlank blank (by decide)), if_pos blank]
  exact reads fuel before (Nat.le_of_succ_le_succ enough)

theorem ReadsAs.blanks {lead text : List Char} {tokens : List Token} (reads : ReadsAs text tokens)
    (blanks : AreBlanks lead) : ReadsAs (lead ++ text) tokens := by
  induction lead with
  | nil => exact reads
  | cons character lead hypothesis =>
    obtain ⟨blank, blanks⟩ := List.forall_mem_cons.mp blanks
    exact (hypothesis blanks).blank blank

theorem ReadsAs.opening {text : List Char} {tokens : List Token} (reads : ReadsAs text tokens)
    (start : IsPlainStart text) : ReadsAs ('(' :: text) (opening :: tokens) := by
  intro fuel before enough
  obtain ⟨fuel, rfl⟩ := Nat.exists_eq_add_of_le' (Nat.one_le_of_lt enough)
  have step : readAllFrom (fuel + 1) before ('(' :: text) =
      readAllFrom fuel (Token.opening :: before) text := by
    cases text with
    | nil => rfl
    | cons first rest =>
      obtain ⟨semicolon, mark, _⟩ := start first rfl
      rw [readAllFrom]
      all_goals simp_all
  rw [step, reads fuel _ (Nat.le_of_succ_le_succ enough), List.reverse_cons, List.append_assoc]
  rfl

theorem ReadsAs.closing {text : List Char} {tokens : List Token} (reads : ReadsAs text tokens) :
    ReadsAs (')' :: text) (closing :: tokens) := by
  intro fuel before enough
  obtain ⟨fuel, rfl⟩ := Nat.exists_eq_add_of_le' (Nat.one_le_of_lt enough)
  rw [readAllFrom, reads fuel _ (Nat.le_of_succ_le_succ enough), List.reverse_cons,
    List.append_assoc]
  rfl

/-! ## Runs -/

theorem readRun_of_isApart {text : List Char} (apart : IsApart text) (fuel : ℕ) :
    readRun fuel text = some ([], text) := by
  cases fuel with
  | zero => rfl
  | succ fuel =>
    cases text with
    | nil => rfl
    | cons first rest =>
      obtain ⟨letter, quote⟩ := apart first rfl
      rw [readRun, if_neg quote, letter]
      rfl

/-- The end of a run of letters. -/
theorem dropWhile_isLetter {letters rest : List Char} (spelled : ∀ c ∈ letters, isLetter c = true)
    (apart : IsApart rest) :
    (letters ++ rest).takeWhile isLetter = letters ∧
      (letters ++ rest).dropWhile isLetter = rest := by
  have none : rest.takeWhile isLetter = [] ∧ rest.dropWhile isLetter = rest := by
    cases rest with
    | nil => exact ⟨rfl, rfl⟩
    | cons first rest =>
      obtain ⟨letter, _⟩ := apart first rfl
      simp [letter]
  rw [List.takeWhile_append_of_pos spelled, List.dropWhile_append_of_pos spelled, none.1, none.2,
    List.append_nil]
  exact ⟨rfl, rfl⟩

theorem readRun_letters {first : Char} {letters rest : List Char}
    (spelled : ∀ c ∈ first :: letters, isLetter c = true) (apart : IsApart rest) (fuel : ℕ) :
    readRun (fuel + 1) (first :: (letters ++ rest)) =
      some ([.letters (first :: letters)], rest) := by
  obtain ⟨letter, spelled⟩ := List.forall_mem_cons.mp spelled
  obtain ⟨taken, left⟩ := dropWhile_isLetter spelled apart
  rw [readRun, if_neg (ne_of_isLetter letter (by decide)), if_pos letter, taken, left,
    readRun_of_isApart apart]
  rfl

/-- A run of letters is one token, whichever it is. -/
theorem ReadsAs.letters {letters rest : List Char} {tokens : List Token}
    (reads : ReadsAs rest tokens) (nonempty : letters ≠ [])
    (spelled : ∀ c ∈ letters, isLetter c = true) (apart : IsApart rest) :
    ReadsAs (letters ++ rest) (ofPieces [.letters letters] :: tokens) := by
  intro fuel before enough
  cases letters with
  | nil => exact absurd rfl nonempty
  | cons first letters =>
    have letter := spelled first List.mem_cons_self
    have solid : isBlank first = false := by
      by_contra blank
      rw [Bool.not_eq_false] at blank
      rw [isLetter_of_isBlank blank] at letter
      cases letter
    have meant : isVoid first = false := by
      simp only [isLetter, Bool.and_eq_true, Bool.not_eq_true'] at letter
      rw [isVoid, letter.2]
      rfl
    have shorter : rest.length + letters.length + 1 ≤ fuel := by
      simpa [Nat.add_comm, Nat.add_left_comm] using enough
    obtain ⟨fuel, rfl⟩ := Nat.exists_eq_add_of_le' (Nat.one_le_of_lt shorter)
    rw [List.cons_append, readAllFrom_cons fuel before _ (ne_of_isLetter letter (by decide))
      (ne_of_isLetter letter (by decide)) (ne_of_isLetter letter (by decide)), solid, meant, letter,
      Bool.or_true, readRun_letters spelled apart]
    simp only [Bool.false_eq_true, if_false, if_true]
    rw [reads fuel _ (by omega), List.reverse_cons, List.append_assoc]
    rfl

theorem isWord_cons {first : Char} {rest : List Char}
    (spelled : (first :: rest).all isLetter = true) (dollar : first ≠ '$') (mark : first ≠ '@') :
    IsWord (first :: rest) := by
  refine ⟨List.cons_ne_nil _ _, List.all_eq_true.mp spelled, fun other mem => ?_⟩
  cases mem
  exact ⟨dollar, mark⟩

theorem IsWord.ofPieces {letters : List Char} (isWord : IsWord letters) :
    ofPieces [.letters letters] = word (String.ofList letters) := by
  cases letters with
  | nil => exact absurd rfl isWord.nonempty
  | cons first rest =>
    obtain ⟨dollar, mark⟩ := isWord.unmarked first rfl
    rw [Token.ofPieces]
    all_goals simp_all

theorem ReadsAs.word {letters rest : List Char} {tokens : List Token} (reads : ReadsAs rest tokens)
    (isWord : IsWord letters) (apart : IsApart rest) :
    ReadsAs (letters ++ rest) (word (String.ofList letters) :: tokens) := by
  rw [← isWord.ofPieces]
  exact reads.letters isWord.nonempty isWord.spelled apart

theorem ReadsAs.name {letters rest : List Char} {tokens : List Token} (reads : ReadsAs rest tokens)
    (nonempty : letters ≠ []) (spelled : ∀ c ∈ letters, isLetter c = true) (apart : IsApart rest) :
    ReadsAs ('$' :: letters ++ rest) (name (String.ofList letters) :: tokens) := by
  cases letters with
  | nil => exact absurd rfl nonempty
  | cons first letters =>
    exact reads.letters (List.cons_ne_nil _ _) (List.forall_mem_cons.mpr ⟨by decide, spelled⟩) apart

/-! ## Strings -/

theorem readEscape_hex {high low : Char} {upper lower : ℕ} (rest : List Char)
    (first : Text.hexValue? high = some upper) (second : Text.hexValue? low = some lower) :
    readEscape (high :: low :: rest) = some ([UInt8.ofNat (16 * upper + lower)], rest) := by
  -- No digit is one of the letters that announce another escape.
  have digit (other : Char) (none : Text.hexValue? other = none) : high ≠ other := by
    rintro rfl
    rw [none] at first
    cases first
  have escaped := digit 't' (by decide)
  have newline := digit 'n' (by decide)
  have returned := digit 'r' (by decide)
  have quoted := digit '\x22' (by decide)
  have single := digit '\x27' (by decide)
  have slash := digit '\x5c' (by decide)
  have numbered := digit 'u' (by decide)
  rw [readEscape]
  all_goals simp_all

theorem SpellsBytes.read {content : Bytes} {text : List Char} (spells : SpellsBytes content text)
    (fuel : ℕ) (before : Bytes) (rest : List Char) (enough : text.length < fuel) :
    readString fuel before (text ++ '\x22' :: rest) = some (before.reverse ++ content, rest) := by
  induction spells generalizing fuel before with
  | nil =>
    obtain ⟨fuel, rfl⟩ := Nat.exists_eq_add_of_le' (Nat.one_le_of_lt enough)
    simp [readString]
  | @plain character _ _ unquoted printed plain others hypothesis =>
    obtain ⟨fuel, rfl⟩ := Nat.exists_eq_add_of_le' (Nat.one_le_of_lt enough)
    have accepted : (0x20 ≤ character.toNat && character.toNat ≠ 0x7f && isPlain character) =
        true := by
      rw [decide_eq_true printed.1, decide_eq_true printed.2, plain]
      rfl
    rw [List.cons_append, readString, if_neg unquoted.1, if_neg unquoted.2, if_pos accepted,
      hypothesis fuel _ (Nat.lt_of_succ_lt_succ enough), List.reverse_append, List.reverse_reverse,
      List.append_assoc]
  | escape first second others hypothesis =>
    obtain ⟨fuel, rfl⟩ := Nat.exists_eq_add_of_le' (Nat.one_le_of_lt enough)
    rw [List.length_cons, List.length_cons, List.length_cons] at enough
    rw [List.cons_append, readString, if_neg (by decide), if_pos rfl, List.cons_append,
      List.cons_append, readEscape_hex _ first second]
    dsimp only
    rw [hypothesis fuel _ (by omega)]
    simp

theorem ReadsAs.string {content : Bytes} {text rest : List Char} {tokens : List Token}
    (reads : ReadsAs rest tokens) (spells : SpellsBytes content text) (apart : IsApart rest) :
    ReadsAs ('\x22' :: text ++ '\x22' :: rest) (string content :: tokens) := by
  intro fuel before enough
  have shorter : text.length + rest.length + 2 ≤ fuel := by
    simpa [Nat.add_assoc, Nat.add_comm, Nat.add_left_comm] using enough
  obtain ⟨fuel, rfl⟩ := Nat.exists_eq_add_of_le' (Nat.one_le_of_lt shorter)
  have run : readRun (fuel + 1) ('\x22' :: (text ++ '\x22' :: rest)) =
      some ([.string content], rest) := by
    rw [readRun, if_pos rfl, spells.read fuel [] rest (by omega)]
    simp only [Option.bind_eq_bind, Option.bind_some, readRun_of_isApart apart]
    rfl
  rw [List.cons_append, readAllFrom_cons fuel before _ (by decide) (by decide) (by decide), run]
  simp only [show isBlank '\x22' = false by decide, show isVoid '\x22' = false by decide,
    Bool.false_eq_true, if_false, decide_true, Bool.true_or, if_true, ofPieces]
  rw [reads fuel _ (by omega), List.reverse_cons, List.append_assoc]
  rfl

/-- What the tokens of a text are is what all of its characters are read as. -/
theorem ReadsAs.readAll? {text : List Char} {tokens : List Token} (reads : ReadsAs text tokens) :
    readAll? (String.ofList text) = some tokens := by
  rw [Token.readAll?, String.toList_ofList, reads _ _ (by simp), Option.map_some, List.append_nil,
    List.reverse_reverse]

end Token

end TableKernels.Wasm.Text
