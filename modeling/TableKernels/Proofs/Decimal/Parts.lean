import TableKernels.Proofs.Decimal.Shortest
import TableKernels.Proofs.Json.Numerals

/-!
# The parts of a written number

A finite number is written as a numeral: its shortest digits before and behind a point, or one digit
before the point and a power of ten. A zero keeps its point as well, so no number is read as an
integer.
-/

namespace TableKernels.Decimal

open Json

/-! ## Parts -/

/-- The parts of digits with a point at their power of ten. -/
def positionalParts (digits : List Char) (power : ℤ) : Parts :=
  if 0 ≤ power then ⟨digits ++ zeros power.toNat, ['0'], none⟩
  else if (-power).toNat < digits.length then
    ⟨digits.take (digits.length - (-power).toNat), digits.drop (digits.length - (-power).toNat),
      none⟩
  else ⟨['0'], zeros ((-power).toNat - digits.length) ++ digits, none⟩

/-- The parts of digits with a power of ten. -/
def exponentParts (digits : List Char) (leading : ℤ) : Parts :=
  ⟨digits.take 1, digits.drop 1, some (decide (leading < 0), digitsOf leading.natAbs)⟩

/-- The parts of the text of a finite number. -/
def floatParts (number : Binary64) : Parts :=
  if number.isZero then positionalParts ['0'] 0
  else
    let scaled := shortest .toEven number
    let digits := digitsOf scaled.digits
    let leading := scaled.power + digits.length - 1
    if Style.json.isPositional leading then positionalParts digits scaled.power
    else exponentParts digits leading

variable {digits : List Char}

theorem isDigits_zeros (count : ℕ) : IsDigits (zeros count) := by
  intro character mem
  rw [List.eq_of_mem_replicate mem]
  decide

theorem text_positionalParts (digits : List Char) (written : digits ≠ []) (power : ℤ) :
    (positionalParts digits power).text = positionalText true digits power := by
  unfold positionalParts positionalText
  split
  · simp [Parts.text, Parts.fractionText, Parts.powerText]
  · split
    · next fewer =>
      have some : ¬ (digits.drop (digits.length - (-power).toNat)).isEmpty := by
        rw [List.isEmpty_iff, List.drop_eq_nil_iff]
        omega
      simp only [Parts.text, Parts.fractionText, Parts.powerText, if_neg some, List.append_nil,
        if_pos fewer]
    · next more =>
      have some : ¬ (zeros ((-power).toNat - digits.length) ++ digits).isEmpty := by
        simp [written]
      simp only [Parts.text, Parts.fractionText, Parts.powerText, if_neg some, List.append_nil,
        if_neg more]
      rfl

theorem text_exponentParts (digits : List Char) (leading : ℤ) :
    (exponentParts digits leading).text = exponentText digits leading := by
  have sign : (if decide (leading < 0) = true then '-' else '+') =
      if leading < 0 then '-' else '+' := by simp
  rcases digits with _ | ⟨first, _ | ⟨second, rest⟩⟩
  all_goals
    simp only [exponentParts, exponentText, Parts.text, Parts.fractionText, Parts.powerText, sign]
    rfl

/-- Digits without a leading zero. -/
structure IsPlain (digits : List Char) : Prop where
  all : IsDigits digits
  written : digits ≠ []
  leads : digits.head? ≠ some '0'

theorem isPlain_digitsOf {number : ℕ} (pos : 0 < number) : IsPlain (digitsOf number) :=
  ⟨isDigits_toDigits number, Nat.toDigits_ne_nil, head?_toDigits pos⟩

theorem positionalParts_isNumeral (plain : IsPlain digits) (power : ℤ) :
    (positionalParts digits power).IsNumeral := by
  obtain ⟨first, others, rfl⟩ := List.exists_cons_of_ne_nil plain.written
  have leads : first ≠ '0' := fun zero => plain.leads (by rw [zero]; rfl)
  unfold positionalParts
  split
  · refine ⟨?_, by simp, fun zero => absurd (Option.some.inj zero) leads, ?_, nofun⟩
    · exact List.forall_mem_append.mpr ⟨plain.all, isDigits_zeros _⟩
    · exact isDigits_zeros 1
  · split
    · next fewer =>
      obtain ⟨count, places⟩ : ∃ count,
          (first :: others).length - (-power).toNat = count + 1 :=
        ⟨(first :: others).length - (-power).toNat - 1, by omega⟩
      rw [places]
      refine ⟨fun character mem => plain.all character (List.mem_of_mem_take mem), by simp,
        fun zero => absurd (Option.some.inj zero) leads,
        fun character mem => plain.all character (List.mem_of_mem_drop mem), nofun⟩
    · exact ⟨isDigits_zeros 1, by simp, fun _ => rfl,
        List.forall_mem_append.mpr ⟨isDigits_zeros _, plain.all⟩, nofun⟩

theorem exponentParts_isNumeral (plain : IsPlain digits) (leading : ℤ) :
    (exponentParts digits leading).IsNumeral := by
  obtain ⟨first, others, rfl⟩ := List.exists_cons_of_ne_nil plain.written
  have leads : first ≠ '0' := fun zero => plain.leads (by rw [zero]; rfl)
  refine ⟨fun character mem => plain.all character (List.mem_of_mem_take mem), by
    simp [exponentParts], fun zero => absurd (Option.some.inj zero) leads,
    fun character mem => plain.all character (List.mem_of_mem_drop mem), ?_⟩
  intro power same
  cases same
  exact ⟨isDigits_toDigits _, Nat.toDigits_ne_nil⟩

theorem floatParts_isNumeral (number : Binary64) : (floatParts number).IsNumeral := by
  unfold floatParts
  split
  · exact ⟨isDigits_zeros 1, by simp [positionalParts], fun _ => rfl, isDigits_zeros 1, nofun⟩
  · next nonzero =>
    have plain := isPlain_digitsOf (shortest_pos (by simpa using nonzero) .toEven)
    simp only
    split
    · exact positionalParts_isNumeral plain _
    · exact exponentParts_isNumeral plain _

/-- A finite number is written with its sign and its parts. -/
theorem floatText_eq {number : Binary64} (finite : number.isFinite = true) :
    floatText number =
      (if number.isNegative then ['-'] else []) ++ (floatParts number).text := by
  have body : (floatParts number).text =
      if number.isZero then positionalText true ['0'] 0
      else
        let scaled := shortest .toEven number
        let digits := digitsOf scaled.digits
        let leading := scaled.power + digits.length - 1
        if Style.json.isPositional leading then positionalText true digits scaled.power
        else exponentText digits leading := by
    have written : digitsOf (shortest .toEven number).digits ≠ [] := Nat.toDigits_ne_nil
    unfold floatParts
    simp only [apply_ite Parts.text, text_positionalParts _ written, text_exponentParts,
      text_positionalParts ['0'] (List.cons_ne_nil _ _)]
  rw [floatText, if_pos finite, Style.text, String.toList_ofList, body]
  rfl

end TableKernels.Decimal
