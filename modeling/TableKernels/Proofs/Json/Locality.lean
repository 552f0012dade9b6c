import TableKernels.Json.Record
import TableKernels.Proofs.Json.Extension

/-!
# Readers of one token

What such a reader takes depends neither on the blanks in front of a value nor on the text behind
it, as long as that text does not go on with a numeral. A value that it cannot take is refused
whatever stands behind it. So a value inside an object is read as it is read alone.
-/

namespace TableKernels.Json

variable {α β : Type} {text rest more : List Char}

theorem isBlanks_iff : IsBlanks text ↔ skipBlanks text = [] :=
  List.dropWhile_eq_nil_iff.symm

theorem Reader.run_eq_ok {reader : Reader α} {value : α} :
    reader.run (.ofList text) = .ok value ↔
      ∃ trail, IsBlanks trail ∧ reader text = .ok (value, trail) := by
  rw [Reader.run, String.toList_ofList]
  cases same : reader text with
  | error fault => exact ⟨nofun, nofun⟩
  | ok taken =>
    obtain ⟨found, trail⟩ := taken
    simp only [Bind.bind, Except.bind, isBlanks_iff]
    split
    · next none =>
      constructor
      · rintro ⟨⟩
        exact ⟨trail, none, rfl⟩
      · rintro ⟨_, _, ⟨⟩⟩
        rfl
    · next some =>
      constructor
      · nofun
      · rintro ⟨_, none, ⟨⟩⟩
        cases none.symm.trans some

theorem Codec.parse_map (codec : Codec α) (into : α → β) (back : β → α) (text : String) :
    (codec.map into back).parse text = (codec.parse text).map into := by
  change Reader.run (Reader.bind codec.read fun value => Reader.pure (into value)) text = _
  rw [Codec.parse, Reader.run, Reader.run, Reader.bind]
  cases codec.read text.toList with
  | error fault => rfl
  | ok taken =>
    simp only [Reader.pure, Bind.bind, Except.bind]
    cases skipBlanks taken.2 <;> rfl

/-! ## Values of any shape -/

/-- The text of one value, whatever it is, with nothing but blanks around it. -/
def IsValue (text : List Char) : Prop := Reader.ignored.run (.ofList text) = .ok ()

theorem skipValue_scalar {after : List Char}
    (scalar : skipScalar (skipBlanks text) = .ok (none, after)) :
    skipValue text = .ok (skipBlanks after) := by
  have closed : closeBrackets 1 [] after = ([], skipBlanks after) := rfl
  simp only [skipValue, skipFrom, scalar, Bind.bind, Except.bind, skipFrom.leave, List.length_nil,
    Nat.zero_add, closed]
  rfl

theorem skipBlanks_skipBlanks (text : List Char) : skipBlanks (skipBlanks text) = skipBlanks text :=
  List.dropWhile_idempotent _ _

theorem isValue_of_scalar {after : List Char}
    (scalar : skipScalar (skipBlanks text) = .ok (none, after)) (blanks : IsBlanks after) :
    IsValue text := by
  refine Reader.run_eq_ok.mpr ⟨skipBlanks after, ?_, ?_⟩
  · rw [isBlanks_iff, skipBlanks_skipBlanks, isBlanks_iff.mp blanks]
  · rw [Reader.ignored, skipValue_scalar scalar]
    rfl

/-- A value is a token with blanks behind it, or it opens with a bracket. -/
theorem IsValue.scalar (value : IsValue text) : ∃ opened after,
    skipScalar (skipBlanks text) = .ok (opened, after) ∧ (opened = none → IsBlanks after) := by
  obtain ⟨trail, blanks, passed⟩ := Reader.run_eq_ok.mp value
  cases scalar : skipScalar (skipBlanks text) with
  | error fault =>
    have refused : skipValue text = .error fault := by
      simp only [skipValue, skipFrom, scalar, Bind.bind, Except.bind]
    rw [Reader.ignored, refused] at passed
    cases passed
  | ok token =>
    obtain ⟨opened, after⟩ := token
    refine ⟨opened, after, rfl, ?_⟩
    rintro rfl
    rw [Reader.ignored, skipValue_scalar scalar] at passed
    cases passed
    rwa [isBlanks_iff, skipBlanks_skipBlanks, ← isBlanks_iff] at blanks

theorem IsValue.solid (value : IsValue text) : skipBlanks text ≠ [] := by
  intro none
  obtain ⟨opened, after, passed, _⟩ := value.scalar
  rw [none] at passed
  cases passed

/-! ## Readers of a token -/

/-- A reader of one token, which takes nothing but that token. -/
structure Reader.IsLocal (reader : Reader α) : Prop where
  lead : ∀ lead text, IsBlanks lead → reader (lead ++ text) = reader text
  /-- There is something to be read. -/
  solid : ∀ text, IsBlanks text → ∃ fault, reader text = .error fault
  extend : reader.Extends
  /-- Of a value the reader takes all, or it refuses the value before it has seen what follows. -/
  whole : ∀ text, IsValue text →
    (∃ value trail, IsBlanks trail ∧ reader text = .ok (value, trail)) ∨
      ∀ more, Follows more → ∃ fault, reader (text ++ more) = .error fault

namespace Reader.IsLocal

theorem bind {reader : Reader α} {next : α → Reader β} (here : reader.IsLocal)
    (checks : ∀ value, (∃ result, next value = Reader.pure result) ∨
      ∃ fault, next value = Reader.refuse fault) : (reader.bind next).IsLocal where
  lead lead text blanks := by
    rw [Reader.bind, Reader.bind, here.lead lead text blanks]
  solid text blanks := by
    obtain ⟨fault, refused⟩ := here.solid text blanks
    exact ⟨fault, by rw [Reader.bind, refused]⟩
  extend := by
    intro text value rest more follows read
    cases same : reader text with
    | error fault =>
      simp only [Reader.bind, same] at read
      cases read
    | ok taken =>
      simp only [Reader.bind, same, here.extend more follows same] at read ⊢
      rcases checks taken.1 with ⟨result, accepted⟩ | ⟨fault, refused⟩
      · rw [accepted] at read ⊢
        cases read
        rfl
      · rw [refused] at read
        cases read
  whole text value := by
    rcases here.whole text value with ⟨found, trail, blanks, read⟩ | refuses
    · rcases checks found with ⟨result, accepted⟩ | ⟨fault, refused⟩
      · left
        refine ⟨result, trail, blanks, ?_⟩
        simp only [Reader.bind, read, accepted]
        rfl
      · right
        intro more follows
        refine ⟨fault, ?_⟩
        simp only [Reader.bind, here.extend more follows read, refused]
        rfl
    · right
      intro more follows
      obtain ⟨fault, refused⟩ := refuses more follows
      exact ⟨fault, by simp only [Reader.bind, refused]⟩

theorem map {reader : Reader α} (here : reader.IsLocal) (f : α → β) :
    Reader.IsLocal (do return f (← reader)) :=
  here.bind fun value => .inl ⟨f value, rfl⟩

end Reader.IsLocal

theorem mismatch_refuses {α : Type} (expected : String) (text : List Char) :
    ∃ fault, (Reader.mismatch expected : Reader α) text = .error fault := by
  cases same : (Reader.mismatch expected : Reader α) text with
  | error fault => exact ⟨fault, rfl⟩
  | ok taken =>
    unfold Reader.mismatch at same
    dsimp only at same
    repeat' split at same
    all_goals first
      | cases same
      | (obtain ⟨_, _, wrong⟩ := exists_of_bind_eq_ok same; cases wrong)

/-! ## Numerals -/

theorem readNumeral_of_ne {first : Char} (other : first ≠ '-') :
    readNumeral (first :: text) = readUnsigned false (first :: text) := by
  unfold readNumeral
  split
  · next same => exact absurd (List.cons.inj same).1 other
  · rfl

theorem readUnsigned_eq {negative : Bool} {literal : Literal}
    (read : readLiteral negative text = .ok (literal, rest)) :
    readUnsigned negative text = literal.numeral.map (·, rest) := by
  simp only [readUnsigned, read, Bind.bind, Except.bind]
  cases literal.numeral <;> rfl

theorem readUnsigned_extends (negative : Bool) : Reader.Extends (readUnsigned negative) := by
  intro text value rest more follows read
  obtain ⟨⟨literal, after⟩, readParts, _⟩ := exists_of_bind_eq_ok read
  rw [readUnsigned_eq readParts] at read
  rw [readUnsigned_eq (readLiteral_extends negative more follows readParts)]
  obtain ⟨number, numeral, same⟩ := exists_of_map_eq_ok read
  cases same
  rw [numeral]
  rfl

theorem readNumeral_extends : Reader.Extends readNumeral := by
  intro text value rest more follows read
  cases text with
  | nil => cases read
  | cons first text =>
    by_cases minus : first = '-'
    · subst minus
      exact readUnsigned_extends true more follows read
    · rw [readNumeral_of_ne minus] at read
      rw [List.cons_append, readNumeral_of_ne minus]
      exact readUnsigned_extends false more follows read

/-- A numeral that is passed over has the same number, or none, whatever ends it. -/
theorem readNumeral_of_skip {first : Char} {opened : Option Bracket}
    (starts : first = '-' ∨ isDigit first = true)
    (passed : skipScalar (first :: text) = .ok (opened, rest)) :
    opened = none ∧ ∃ result : Except Fault Numeral, ∀ more, Follows more →
      readNumeral (first :: text ++ more) = result.map (·, rest ++ more) := by
  -- The text that is passed over is the one that is read, but for the sign in front of it.
  have parts (negative : Bool) {text : List Char} (passed : skipNumeral text = .ok rest) :
      ∃ result : Except Fault Numeral, ∀ more, Follows more →
        readUnsigned negative (text ++ more) = result.map (·, rest ++ more) := by
    obtain ⟨literal, read⟩ := readLiteral_of_skip negative passed
    refine ⟨literal.numeral, fun more follows => ?_⟩
    exact readUnsigned_eq (readLiteral_extends negative more follows read)
  rcases starts with rfl | digit
  · obtain ⟨after, passed, same⟩ := exists_of_bind_eq_ok
      (show (skipNumeral text >>= fun after => pure (none, after)) = .ok (opened, rest) from passed)
    cases same
    exact ⟨rfl, parts true passed⟩
  · have minus : first ≠ '-' := by
      rintro rfl
      exact absurd digit (by decide)
    have passed : (skipNumeral (first :: text) >>= fun after => pure (none, after)) =
        .ok (opened, rest) := by
      unfold skipScalar at passed
      dsimp only at passed
      split at passed
      · next same => exact absurd digit (by rw [same]; decide)
      · split at passed
        all_goals first
          | exact absurd digit (by decide)
          | exact passed
    obtain ⟨after, passed, same⟩ := exists_of_bind_eq_ok passed
    cases same
    refine ⟨rfl, ?_⟩
    obtain ⟨result, read⟩ := parts false passed
    refine ⟨result, fun more follows => ?_⟩
    rw [List.cons_append, readNumeral_of_ne minus]
    exact read more follows

theorem numeral_of_solid {first : Char} (expected : String)
    (solid : skipBlanks text = first :: rest) :
    Reader.numeral expected text =
      if first = '-' ∨ isDigit first = true then readNumeral (first :: rest)
      else Reader.mismatch expected (first :: rest) := by
  rw [Reader.numeral, solid]

theorem isLocal_numeral (expected : String) : (Reader.numeral expected).IsLocal where
  lead lead text blanks := by
    rw [Reader.numeral, Reader.numeral, skipBlanks_append blanks]
  solid text blanks := ⟨.truncated, by rw [Reader.numeral, isBlanks_iff.mp blanks]⟩
  extend := by
    intro text value rest more follows read
    cases solid : skipBlanks text with
    | nil =>
      rw [Reader.numeral, solid] at read
      cases read
    | cons first body =>
      rw [numeral_of_solid expected solid] at read
      -- What is added stands behind the first character, which decides between the two branches.
      rw [numeral_of_solid expected (skipBlanks_extend solid more)]
      split at read
      · next starts =>
        rw [if_pos starts]
        exact readNumeral_extends more follows read
      · obtain ⟨fault, refused⟩ := mismatch_refuses expected (first :: body)
        cases refused.symm.trans read
  whole text value := by
    obtain ⟨first, body, solid⟩ := List.exists_cons_of_ne_nil value.solid
    obtain ⟨opened, after, passed, blanks⟩ := value.scalar
    rw [solid] at passed
    by_cases starts : first = '-' ∨ isDigit first = true
    · obtain ⟨rfl, result, read⟩ := readNumeral_of_skip starts passed
      cases result with
      | error fault =>
        right
        intro more follows
        refine ⟨fault, ?_⟩
        rw [numeral_of_solid expected (skipBlanks_extend solid more), if_pos starts]
        exact read more follows
      | ok number =>
        left
        refine ⟨number, after, blanks rfl, ?_⟩
        have alone := read [] follows_nil
        rw [List.append_nil, List.append_nil] at alone
        rw [numeral_of_solid expected solid, if_pos starts]
        exact alone
    · right
      intro more _
      rw [numeral_of_solid expected (skipBlanks_extend solid more), if_neg starts]
      exact mismatch_refuses expected _

theorem isLocal_integer (expected : String) (least greatest : ℤ) :
    (Reader.integer expected least greatest).IsLocal := by
  refine (isLocal_numeral expected).bind fun number => ?_
  cases number with
  | float value => exact .inr ⟨_, rfl⟩
  | integer value =>
    dsimp only
    split
    · exact .inl ⟨value, rfl⟩
    · exact .inr ⟨_, rfl⟩

theorem isLocal_float : Codec.float.read.IsLocal := by
  refine (isLocal_numeral "f64").bind fun number => ?_
  cases number with
  | float value => exact .inl ⟨value, rfl⟩
  | integer value => exact .inl ⟨.ofInt value, rfl⟩

theorem isLocal_int64 : Codec.int64.read.IsLocal :=
  (isLocal_integer _ _ _).map Int64.ofInt

theorem isLocal_uint64 (expected : String) : (Codec.uint64 expected).read.IsLocal :=
  (isLocal_integer _ _ _).map fun value => UInt64.ofNat value.toNat

/-! ## Optional values -/

theorem Reader.IsLocal.skipBlanks {reader : Reader α} (here : reader.IsLocal)
    (text : List Char) : reader (skipBlanks text) = reader text := by
  have blanks : IsBlanks (text.takeWhile isBlank) := fun _ => List.mem_takeWhile_imp
  have skipped := here.lead _ (text.dropWhile isBlank) blanks
  rw [List.takeWhile_append_dropWhile] at skipped
  exact skipped.symm

theorem head?_skipBlanks_append (solid : skipBlanks text ≠ []) (more : List Char) :
    (skipBlanks (text ++ more)).head? = (skipBlanks text).head? := by
  obtain ⟨first, rest, solid⟩ := List.exists_cons_of_ne_nil solid
  rw [skipBlanks_extend solid, solid]
  rfl

section Optional

variable {codec : Codec α}

theorem optional_null (solid : skipBlanks text = 'n' :: rest) :
    (Codec.optional codec).read text = Reader.nullRest none rest := by
  change Reader.optional codec.read text = _
  rw [Reader.optional, solid]
  rfl

theorem optional_some (here : codec.read.IsLocal) (other : (skipBlanks text).head? ≠ some 'n') :
    (Codec.optional codec).read text =
      (codec.read text).map fun (value, rest) => (some value, rest) := by
  change Reader.optional codec.read text = _
  rw [Reader.optional]
  split
  · next rest same => exact absurd (by rw [same]; rfl) other
  · rw [here.skipBlanks]

theorem isLocal_optional (here : codec.read.IsLocal) : (Codec.optional codec).read.IsLocal where
  lead lead text blanks := by
    change Reader.optional codec.read _ = Reader.optional codec.read _
    rw [Reader.optional, Reader.optional, skipBlanks_append blanks]
  solid text blanks := by
    obtain ⟨fault, refused⟩ := here.solid text blanks
    refine ⟨fault, ?_⟩
    rw [optional_some here (by rw [isBlanks_iff.mp blanks]; nofun), refused]
    rfl
  extend := by
    intro text value rest more follows read
    by_cases null : (skipBlanks text).head? = some 'n'
    · obtain ⟨body, solid⟩ := List.head?_eq_some_iff.mp null
      rw [optional_null solid] at read
      rw [optional_null (skipBlanks_extend solid more)]
      obtain ⟨after, passed, same⟩ := exists_of_map_eq_ok read
      cases same
      rw [Reader.nullRest, Reader.word, expectWord_extend more passed]
      rfl
    · rw [optional_some here null] at read
      -- The reader would have refused blanks, so what is added does not change the first character.
      have solid : skipBlanks text ≠ [] := by
        intro none
        obtain ⟨fault, refused⟩ := here.solid text (isBlanks_iff.mpr none)
        rw [refused] at read
        cases read
      rw [optional_some here (by rwa [head?_skipBlanks_append solid more])]
      exact here.extend.map some more follows read
  whole text value := by
    by_cases null : (skipBlanks text).head? = some 'n'
    · obtain ⟨body, solid⟩ := List.head?_eq_some_iff.mp null
      obtain ⟨opened, after, passed, blanks⟩ := value.scalar
      rw [solid] at passed
      obtain ⟨rest, word, same⟩ := exists_of_bind_eq_ok
        (show (expectWord ['u', 'l', 'l'] body >>= fun after => pure (none, after)) =
          .ok (opened, after) from passed)
      cases same
      left
      refine ⟨none, after, blanks rfl, ?_⟩
      rw [optional_null solid, Reader.nullRest, Reader.word, word]
      rfl
    · rcases here.whole text value with ⟨found, trail, blanks, read⟩ | refuses
      · left
        refine ⟨some found, trail, blanks, ?_⟩
        rw [optional_some here null, read]
        rfl
      · right
        intro more follows
        obtain ⟨fault, refused⟩ := refuses more follows
        refine ⟨fault, ?_⟩
        rw [optional_some here (by rwa [head?_skipBlanks_append value.solid more]), refused]
        rfl

end Optional

end TableKernels.Json
