import TableKernels.Binary32
import TableKernels.Text.Digit

/-!
# Numerals in the text of a module

Numbers are decimal or, after `0x`, hexadecimal, and single underscores may stand between digits. An
integer may be written with or without a sign, so a word has up to two spellings. A decimal float is
rounded once, to the nearest; one that would round to infinity is no numeral. So it is with a
hexadecimal float, but for the digits that a word has no room for: all that counts of them is
whether they are zero, and the first of them does not count at all unless the word ends where it
begins.
-/

namespace TableKernels.Wasm.Text.Numeral

/-- The digits of a numeral without its underscores; the flag says that a digit must follow. -/
def digitsFrom (base : Nat) : Bool → List Char → Option (List Nat)
  | mustFollow, [] => if mustFollow then none else some []
  | mustFollow, '_' :: rest => if mustFollow then none else digitsFrom base true rest
  | _, character :: rest => do
    let digit ← Text.hexValue? character
    if digit < base then pure (digit :: (← digitsFrom base false rest)) else none

/-- The digits of a numeral, of which there must be one. -/
def digits? (base : Nat) (text : List Char) : Option (List Nat) := digitsFrom base true text

/-- The number that digits spell, the first counting most. -/
def spelled (base : Nat) (digits : List Nat) : Nat :=
  digits.foldl (fun number digit => base * number + digit) 0

/-- The natural number that digits spell, in sixteens after `0x`. -/
def unsigned? : List Char → Option Nat
  | '0' :: 'x' :: rest => (digits? 16 rest).map (spelled 16)
  | text => (digits? 10 text).map (spelled 10)

/-- A number that may have a plus sign. -/
def natural? : List Char → Option Nat
  | '+' :: rest => unsigned? rest
  | text => unsigned? text

/-- Whether a text begins with a minus sign, and what follows its sign if it has one. -/
def sign : List Char → Bool × List Char
  | '-' :: rest => (true, rest)
  | '+' :: rest => (false, rest)
  | text => (false, text)

/-- An integer of so many bits, with or without a sign of its own. -/
def integer? (width : Nat) (text : List Char) : Option Int := do
  let (negative, rest) := sign text
  let size ← unsigned? rest
  if negative then
    if 2 * size ≤ Nat.pow 2 width then pure (-size) else none
  else if size < Nat.pow 2 width then pure size else none

/-- The integer after an exponent mark. -/
def power? (text : List Char) : Option Int := do
  let (negative, rest) := sign text
  let size := spelled 10 (← digits? 10 rest)
  pure (if negative then -size else size)

/-- A text up to the first of some marks, and what follows the mark if there is one. -/
def splitAt (marks : List Char) (text : List Char) : List Char × Option (List Char) :=
  let head := text.takeWhile (!marks.contains ·)
  (head, match text.drop head.length with
    | [] => none
    | _ :: rest => some rest)

/-- A format of floats, as far as it matters to numerals. -/
structure Format where
  /-- The number of hexadecimal digits of a word. -/
  digitCount : Nat
  fractionCount : Nat
  infinityWord : Nat
  /-- The word nearest to a quotient. -/
  round : Nat → Nat → Nat

namespace Format

/-- Floats of 32 bits. -/
def single : Format := ⟨8, Binary32.fractionCount, Binary32.infinityWord, Binary32.magnitudeWord⟩

/-- Floats of 64 bits. -/
def double : Format := ⟨16, Binary64.fractionCount, Binary64.infinityWord, Binary64.magnitudeWord⟩

end Format

/-- The size of a float, before it is rounded. -/
inductive Magnitude
  | ratio (numerator denominator : Nat)
  | infinity
  /-- Not a number; without a fraction of its own, the first fraction bit is set. -/
  | nan (fraction : Option Nat)

namespace Magnitude

/--
The word of a size. A quotient that rounds to infinity is refused; so is a fraction that does not
fit a word, or of which the format keeps nothing.
-/
def word? (format : Format) : Magnitude → Option Nat
  | ratio numerator denominator =>
    let word := format.round numerator denominator
    if word < format.infinityWord then some word else none
  | infinity => some format.infinityWord
  | nan none => some (format.infinityWord + format.fractionCount / 2)
  | nan (some fraction) =>
    let kept := fraction % format.fractionCount
    if fraction < Nat.pow 16 format.digitCount ∧ kept ≠ 0 then some (format.infinityWord + kept)
    else none

/-- The powers of a radix beyond which a number with few digits is no float but zero. -/
def powerLimit : Nat := 5000

/-- A number times a power of a radix; what is far too small or too large is cut to a limit. -/
def scaled (number : Nat) (radix : Nat) (power : Int) : Magnitude :=
  if number = 0 ∨ power < -(powerLimit + number.log2) then ratio 0 1
  else if 0 ≤ power then ratio (number * Nat.pow radix (min power.toNat powerLimit)) 1
  else ratio number (Nat.pow radix (-power).toNat)

/-- The digits of a numeral before its point and behind it, and its power. -/
def parts? (base : Nat) (marks : List Char) (text : List Char) :
    Option (List Nat × List Nat × Int) := do
  let (significand, exponent) := splitAt marks text
  let (whole, fraction) := splitAt ['.'] significand
  let whole ← digits? base whole
  let fraction ← match fraction with
    | none | some [] => pure []
    | some fraction => digits? base fraction
  let power ← match exponent with
    | none => pure 0
    | some exponent => power? exponent
  pure (whole, fraction, power)

/-- A finite size in decimal digits. -/
def decimal? (text : List Char) : Option Magnitude := do
  let (whole, fraction, power) ← parts? 10 ['e', 'E'] text
  pure (scaled (spelled 10 (whole ++ fraction)) 10 (power - fraction.length))

/-- Whether a power of two is one that numerals in sixteens allow. -/
def isExponent (power : Int) : Bool := -0x80000000 ≤ power && power < 0x80000000

/--
The number that the first digits spell as far as they fit a word, with one more bit that says
whether any digit behind them counts.
-/
def leading (digitCount : Nat) (first : Nat) (digits : List Nat) : Nat :=
  let head := spelled 16 (digits.take digitCount) * Nat.pow 16 (digitCount - digits.length)
  let behind := digits.drop (if first < 8 then digitCount + 1 else digitCount)
  2 * head + if behind.any (· ≠ 0) then 1 else 0

/-- A finite size in hexadecimal digits; the power of its first bit must be an exponent. -/
def hexadecimal? (digitCount : Nat) (text : List Char) : Option Magnitude := do
  let (whole, fraction, power) ← parts? 16 ['p', 'P'] text
  match (whole ++ fraction).dropWhile (· = 0) with
  | [] => pure (ratio 0 1)
  | first :: rest =>
    let digits := first :: rest
    let zeros : Int := 3 - first.log2
    let top := 4 * ((digits.length : Int) - fraction.length) - zeros - 1 + power
    if isExponent power && isExponent top then
      pure (scaled (leading digitCount first digits) 2 (top - 4 * digitCount + zeros))
    else none

/-- The size that a text without a sign spells. -/
def ofText? (format : Format) : List Char → Option Magnitude
  | ['i', 'n', 'f'] => some infinity
  | ['n', 'a', 'n'] => some (nan none)
  | 'n' :: 'a' :: 'n' :: ':' :: '0' :: 'x' :: digits =>
    (digits? 16 digits).map fun digits => nan (some (spelled 16 digits))
  | '0' :: 'x' :: rest => hexadecimal? format.digitCount rest
  | rest => decimal? rest

end Magnitude

/-- Whether a float is negative, and the rest of its word. -/
def float? (format : Format) (text : List Char) : Option (Bool × Nat) := do
  let (negative, rest) := sign text
  pure (negative, ← (← Magnitude.ofText? format rest).word? format)

/-- The float of 32 bits that a numeral spells. -/
def binary32? (text : List Char) : Option Binary32 :=
  (float? .single text).map fun (negative, word) => .ofMagnitude negative word

/-- The float of 64 bits that a numeral spells. -/
def binary64? (text : List Char) : Option Binary64 :=
  (float? .double text).map fun (negative, word) => .ofMagnitude negative word

end TableKernels.Wasm.Text.Numeral
