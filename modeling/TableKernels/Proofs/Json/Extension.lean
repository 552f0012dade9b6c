import TableKernels.Json.Record
import TableKernels.Proofs.Configured
import TableKernels.Proofs.Json.Numerals

/-!
# Tokens with a text behind them

What was read of a token stays the same when another text is put behind it: any text behind a string
or a word, and one that does not go on with a numeral behind a numeral. A numeral that is passed
over is also read, up to the same place, whatever number it stands for.
-/

namespace TableKernels.Json

variable {α β : Type} {text rest more : List Char}

theorem exists_of_map_eq_ok {ε : Type} {first : Except ε α} {f : α → β} {value : β}
    (mapped : first.map f = .ok value) : ∃ found, first = .ok found ∧ f found = value := by
  cases first with
  | error fault => cases mapped
  | ok found => exact ⟨found, rfl, Except.ok.inj mapped⟩

/-- What was read stays the same when a text that ends it is put behind. -/
def Reader.Extends (reader : Reader α) : Prop :=
  ∀ ⦃text value rest⦄ more, Follows more → reader text = .ok (value, rest) →
    reader (text ++ more) = .ok (value, rest ++ more)

theorem skipBlanks_extend {first : Char} (solid : skipBlanks text = first :: rest)
    (more : List Char) : skipBlanks (text ++ more) = first :: (rest ++ more) := by
  rw [skipBlanks] at solid ⊢
  rw [List.dropWhile_append, solid]
  rfl

theorem expectWord_extend {letters : List Char} (more : List Char)
    (passed : expectWord letters text = .ok rest) :
    expectWord letters (text ++ more) = .ok (rest ++ more) := by
  induction letters generalizing text with
  | nil =>
    cases passed
    rfl
  | cons letter letters hypothesis =>
    cases text with
    | nil => cases passed
    | cons first text =>
      simp only [expectWord, List.cons_append] at passed ⊢
      split at passed
      · next same =>
        rw [if_pos same]
        exact hypothesis passed
      · cases passed

/-! ## Numerals -/

theorem takeDigits_extend (text : List Char) (follows : Follows more) :
    takeDigits (text ++ more) = ((takeDigits text).1, (takeDigits text).2 ++ more) := by
  induction text with
  | nil => exact takeDigits_append nofun follows.not_digit
  | cons first text hypothesis =>
    simp only [takeDigits, Prod.mk.injEq] at hypothesis
    simp only [takeDigits, List.cons_append, List.takeWhile_cons, List.dropWhile_cons]
    split
    · simp only [List.map_cons, hypothesis]
    · rfl

theorem someDigits_extends : Reader.Extends someDigits := by
  intro text digits rest more follows read
  have taken := takeDigits_extend text follows
  cases text with
  | nil => cases read
  | cons first text =>
    simp only [someDigits, List.cons_append] at read taken ⊢
    split at read
    · next digit =>
      rw [if_pos digit, taken]
      injection read with read
      rw [read]
    · cases read

theorem wholeDigits_of_ne {first : Char} (other : first ≠ '0') :
    wholeDigits (first :: text) = someDigits (first :: text) := by
  unfold wholeDigits
  split
  · next same => exact absurd (List.cons.inj same).1 other
  · rfl

theorem wholeDigits_extends : Reader.Extends wholeDigits := by
  intro text digits rest more follows read
  cases text with
  | nil => cases read
  | cons first text =>
    by_cases zero : first = '0'
    · subst zero
      cases text with
      | nil =>
        cases read
        -- Nothing follows the zero yet, so what is added must not begin with a digit.
        cases more with
        | nil => rfl
        | cons next more =>
          have other := follows.not_digit next rfl
          simp only [List.cons_append, List.nil_append, wholeDigits, other, Bool.false_eq_true,
            if_false]
          rfl
      | cons next text =>
        simp only [List.cons_append, wholeDigits] at read ⊢
        split at read
        · cases read
        · next other =>
          cases read
          rw [if_neg other]
          rfl
    · rw [wholeDigits_of_ne zero] at read
      rw [List.cons_append, wholeDigits_of_ne zero]
      exact someDigits_extends more follows read

theorem fractionDigits_of_ne {first : Char} (other : first ≠ '.') :
    fractionDigits (first :: text) = .ok ([], first :: text) := by
  unfold fractionDigits
  split
  · next same => exact absurd (List.cons.inj same).1 other
  · rfl

theorem fractionDigits_extends : Reader.Extends fractionDigits := by
  intro text digits rest more follows read
  cases text with
  | nil =>
    cases read
    cases more with
    | nil => rfl
    | cons next more => exact fractionDigits_of_ne (follows.not_point next rfl)
  | cons first text =>
    by_cases point : first = '.'
    · subst point
      exact someDigits_extends more follows read
    · rw [fractionDigits_of_ne point] at read
      cases read
      exact fractionDigits_of_ne point

theorem Reader.Extends.map {reader : Reader α} (extended : reader.Extends) (f : α → β) :
    Reader.Extends fun text => (reader text).map fun (value, rest) => (f value, rest) := by
  intro text value rest more follows read
  obtain ⟨⟨found, after⟩, read, same⟩ := exists_of_map_eq_ok read
  cases same
  simp only [extended more follows read]
  rfl

theorem signedPower_of_ne {first : Char} (minus : first ≠ '-') (plus : first ≠ '+') :
    signedPower (first :: text) =
      (someDigits (first :: text)).map fun (digits, rest) => ((spelled digits : Int), rest) := by
  unfold signedPower
  split
  · next same => exact absurd (List.cons.inj same).1 minus
  · next same => exact absurd (List.cons.inj same).1 plus
  · rfl

theorem signedPower_extends : Reader.Extends signedPower := by
  intro text power rest more follows read
  cases text with
  | nil => cases read
  | cons first text =>
    by_cases minus : first = '-'
    · subst minus
      exact someDigits_extends.map (fun digits => -(spelled digits : Int)) more follows read
    · by_cases plus : first = '+'
      · subst plus
        exact someDigits_extends.map (fun digits => (spelled digits : Int)) more follows read
      · rw [signedPower_of_ne minus plus] at read
        rw [List.cons_append, signedPower_of_ne minus plus]
        exact someDigits_extends.map (fun digits => (spelled digits : Int)) more follows read

theorem powerPart_of_ne {first : Char} (other : first ≠ 'e' ∧ first ≠ 'E') :
    powerPart (first :: text) = .ok (none, first :: text) := by
  unfold powerPart
  split
  · next same => exact absurd (List.cons.inj same).1 other.1
  · next same => exact absurd (List.cons.inj same).1 other.2
  · rfl

theorem powerPart_extends : Reader.Extends powerPart := by
  intro text power rest more follows read
  cases text with
  | nil =>
    cases read
    cases more with
    | nil => rfl
    | cons next more => exact powerPart_of_ne (follows.not_mark next rfl)
  | cons first text =>
    by_cases mark : first = 'e' ∨ first = 'E'
    · rcases mark with rfl | rfl
      · exact signedPower_extends.map some more follows read
      · exact signedPower_extends.map some more follows read
    · rw [powerPart_of_ne (not_or.mp mark)] at read
      cases read
      exact powerPart_of_ne (not_or.mp mark)

theorem readLiteral_extends (negative : Bool) : Reader.Extends (readLiteral negative) := by
  intro text literal rest more follows read
  obtain ⟨⟨_, _⟩, readWhole, read⟩ := exists_of_bind_eq_ok read
  obtain ⟨⟨_, _⟩, readFraction, read⟩ := exists_of_bind_eq_ok read
  obtain ⟨⟨_, _⟩, readPower, read⟩ := exists_of_bind_eq_ok read
  cases read
  have whole := wholeDigits_extends more follows readWhole
  have fraction := fractionDigits_extends more follows readFraction
  have power := powerPart_extends more follows readPower
  simp only [readLiteral, whole, fraction, power, bind, Except.bind]
  rfl

/-! ## Numerals that are passed over -/

theorem someDigits_of_skip (passed : skipDigits text = .ok rest) :
    ∃ digits, someDigits text = .ok (digits, rest) := by
  cases text with
  | nil => cases passed
  | cons first text =>
    simp only [skipDigits] at passed
    split at passed
    · next digit =>
      cases passed
      refine ⟨(takeDigits (first :: text)).1, ?_⟩
      simp only [someDigits, takeDigits, digit, if_true, List.dropWhile_cons]
    · cases passed

theorem wholeDigits_of_skip (passed : skipWhole text = .ok rest) :
    ∃ digits, wholeDigits text = .ok (digits, rest) := by
  unfold skipWhole at passed
  split at passed
  · next next others =>
    split at passed
    · cases passed
    · next other =>
      cases passed
      refine ⟨[0], ?_⟩
      simp only [wholeDigits, if_neg other]
  · next text single =>
    obtain ⟨digits, read⟩ := someDigits_of_skip passed
    refine ⟨digits, ?_⟩
    unfold wholeDigits
    split
    · next next others => exact absurd rfl (single next others)
    · exact read

theorem signedPower_of_skip (passed : skipDigits text = .ok rest) :
    ∃ power, signedPower text = .ok (power, rest) := by
  obtain ⟨digits, read⟩ := someDigits_of_skip passed
  cases text with
  | nil => cases read
  | cons first text =>
    have digit : isDigit first = true := by
      by_contra other
      simp only [skipDigits, if_neg other] at passed
      cases passed
    have minus : first ≠ '-' := by
      rintro rfl
      exact absurd digit (by decide)
    have plus : first ≠ '+' := by
      rintro rfl
      exact absurd digit (by decide)
    refine ⟨spelled digits, ?_⟩
    rw [signedPower_of_ne minus plus, read]
    rfl

/-- A power that is passed over is read. -/
theorem powerPart_of_skip (passed : skipPower text = .ok rest) :
    ∃ power, powerPart text = .ok (power, rest) := by
  have marked {text : List Char} (signed : ∃ power, signedPower text = .ok (power, rest)) :
      ∃ power, (signedPower text).map (fun read => (some read.1, read.2)) = .ok (power, rest) := by
    obtain ⟨power, read⟩ := signed
    exact ⟨some power, by rw [read]; rfl⟩
  have plus {text : List Char} (passed : skipDigits text = .ok rest) :
      ∃ power, signedPower ('+' :: text) = .ok (power, rest) := by
    obtain ⟨digits, read⟩ := someDigits_of_skip passed
    exact ⟨_, by rw [signedPower, read]; rfl⟩
  have minus {text : List Char} (passed : skipDigits text = .ok rest) :
      ∃ power, signedPower ('-' :: text) = .ok (power, rest) := by
    obtain ⟨digits, read⟩ := someDigits_of_skip passed
    exact ⟨_, by rw [signedPower, read]; rfl⟩
  -- A sign is tried before a bare digit, for either letter.
  unfold skipPower at passed
  split at passed
  · exact marked (plus passed)
  · exact marked (plus passed)
  · exact marked (minus passed)
  · exact marked (minus passed)
  · exact marked (signedPower_of_skip passed)
  · exact marked (signedPower_of_skip passed)
  · next text _ _ _ _ small great =>
    cases passed
    refine ⟨none, ?_⟩
    unfold powerPart
    split
    · exact absurd rfl (small _)
    · exact absurd rfl (great _)
    · rfl

theorem readLiteral_of_skip (negative : Bool) (passed : skipNumeral text = .ok rest) :
    ∃ literal, readLiteral negative text = .ok (literal, rest) := by
  obtain ⟨afterWhole, passedWhole, passed⟩ := exists_of_bind_eq_ok passed
  obtain ⟨whole, readWhole⟩ := wholeDigits_of_skip passedWhole
  have parts {fraction : List ℕ} {afterFraction : List Char}
      (readFraction : fractionDigits afterWhole = .ok (fraction, afterFraction))
      (passed : skipPower afterFraction = .ok rest) :
      ∃ literal, readLiteral negative text = .ok (literal, rest) := by
    obtain ⟨power, readPower⟩ := powerPart_of_skip passed
    refine ⟨⟨negative, whole, fraction, power⟩, ?_⟩
    simp only [readLiteral, readWhole, readFraction, readPower, bind, Except.bind]
    rfl
  split at passed
  · next others =>
    obtain ⟨afterFraction, passedFraction, passed⟩ := exists_of_bind_eq_ok passed
    obtain ⟨fraction, readFraction⟩ := someDigits_of_skip passedFraction
    exact parts readFraction passed
  · next other =>
    have none : fractionDigits afterWhole = .ok ([], afterWhole) := by
      cases afterWhole with
      | nil => rfl
      | cons first others => exact fractionDigits_of_ne fun same => other others (same ▸ rfl)
    exact parts none passed

/-! ## Strings -/

theorem readUnit_extend {unit : ℕ} (more : List Char) (read : readUnit text = .ok (unit, rest)) :
    readUnit (text ++ more) = .ok (unit, rest ++ more) := by
  unfold readUnit at read
  split at read
  · next first second third fourth others =>
    simp only [readUnit, List.cons_append]
    split at read
    · cases read
      rfl
    · cases read
  · dsimp only at read
    split at read
    · cases read
    · cases read

theorem readTrailing_extend {leading : ℕ} {character : Char} (more : List Char)
    (read : readTrailing leading text = .ok (character, rest)) :
    readTrailing leading (text ++ more) = .ok (character, rest ++ more) := by
  unfold readTrailing at read
  split at read
  · cases read
  · cases read
  · next others =>
    obtain ⟨⟨unit, after⟩, readUnit, read⟩ := exists_of_bind_eq_ok read
    have extended := readUnit_extend more readUnit
    simp only [List.cons_append, readTrailing, extended, bind, Except.bind]
    dsimp only at read
    split at read
    · next trailing =>
      obtain ⟨rfl, rfl⟩ := Prod.mk.inj (Except.ok.inj read)
      rw [if_pos trailing]
      rfl
    · cases read
  · cases read

theorem readUnicode_extend {character : Char} (more : List Char)
    (read : readUnicode text = .ok (character, rest)) :
    readUnicode (text ++ more) = .ok (character, rest ++ more) := by
  obtain ⟨⟨unit, after⟩, readUnit, read⟩ := exists_of_bind_eq_ok read
  have extended := readUnit_extend more readUnit
  simp only [readUnicode, extended, bind, Except.bind]
  dsimp only at read
  split at read
  · cases read
  · next single =>
    rw [if_neg single]
    split at read
    · next leading =>
      rw [if_pos leading]
      exact readTrailing_extend more read
    · next plain =>
      cases read
      rw [if_neg plain]
      rfl

theorem readEscape_extend {character : Char} (more : List Char)
    (read : readEscape text = .ok (character, rest)) :
    readEscape (text ++ more) = .ok (character, rest ++ more) := by
  cases text with
  | nil => cases read
  | cons letter text =>
    simp only [readEscape, List.cons_append] at read ⊢
    split at read
    · cases read
      rfl
    · split at read
      · next unicode =>
        rw [if_pos unicode]
        exact readUnicode_extend more read
      · cases read

theorem readQuotedFrom_extend {fuel fuel' : ℕ} {gathered characters : List Char}
    (le : fuel ≤ fuel') (more : List Char)
    (read : readQuotedFrom fuel gathered text = .ok (characters, rest)) :
    readQuotedFrom fuel' gathered (text ++ more) = .ok (characters, rest ++ more) := by
  induction fuel generalizing fuel' gathered text with
  | zero => cases read
  | succ fuel hypothesis =>
    obtain ⟨fuel', rfl⟩ := Nat.exists_eq_add_of_le' (Nat.one_le_of_lt le)
    cases text with
    | nil => cases read
    | cons first text =>
      simp only [readQuotedFrom, List.cons_append] at read ⊢
      split_ifs at read ⊢ with closing escaped control
      · cases read
        rfl
      · cases same : readEscape text with
        | error fault =>
          rw [same] at read
          cases read
        | ok taken =>
          rw [same] at read
          rw [readEscape_extend more same]
          exact hypothesis (Nat.le_of_succ_le_succ le) read
      · exact hypothesis (Nat.le_of_succ_le_succ le) read

theorem readQuoted_extend {value : String} (more : List Char)
    (read : readQuoted text = .ok (value, rest)) :
    readQuoted (text ++ more) = .ok (value, rest ++ more) := by
  obtain ⟨⟨characters, after⟩, read, same⟩ := exists_of_map_eq_ok read
  cases same
  have long : text.length + 1 ≤ (text ++ more).length + 1 := by simp
  rw [readQuoted, readQuotedFrom_extend long more read]
  rfl

end TableKernels.Json
