import TableKernels.Json.Fault

/-!
# Numerals

A numeral is a sign, whole digits without a leading zero, and optionally a fraction and a power of
ten. Without the last two it is an integer as long as it fits a 64-bit word. Any other numeral is a
float: its digits are gathered in an unsigned 64-bit word for as long as they fit, the word is
rounded to a float, and that is multiplied or divided by a power of ten, which rounds a second
time. So the float is near the decimal but not always the nearest one; a size beyond the range is
refused, and one below it is zero.
-/

namespace TableKernels.Json

/-- The number that a numeral stands for. -/
inductive Numeral
  | integer (value : Int)
  | float (value : Binary64)
deriving DecidableEq

/-- The parts of a numeral: digits are numbers below ten. -/
structure Literal where
  negative : Bool
  whole : List Nat
  fraction : List Nat
  power : Option Int

/-- Whether a character is a decimal digit. -/
def isDigit (character : Char) : Bool := '0' ≤ character && character ≤ '9'

/-- The value of a decimal digit. -/
def digitValue (character : Char) : Nat := character.toNat - 48

/-- The number that decimal digits spell. -/
def spelled (digits : List Nat) : Nat :=
  digits.foldl (fun number digit => 10 * number + digit) 0

/-- The digits at the head of a text, and the rest. -/
def takeDigits (text : List Char) : List Nat × List Char :=
  ((text.takeWhile isDigit).map digitValue, text.dropWhile isDigit)

/-- The digits in front of a text, of which there must be one. -/
def someDigits (text : List Char) : Except Fault (List Nat × List Char) :=
  match text with
  | [] => .error .truncated
  | first :: _ => if isDigit first then .ok (takeDigits text) else .error .malformed

/-- The digits before the point: a zero stands alone. -/
def wholeDigits (text : List Char) : Except Fault (List Nat × List Char) :=
  match text with
  | '0' :: next :: rest => if isDigit next then .error .malformed else .ok ([0], next :: rest)
  | text => someDigits text

/-- The digits after a point, if there is one. -/
def fractionDigits : List Char → Except Fault (List Nat × List Char)
  | '.' :: rest => someDigits rest
  | text => .ok ([], text)

/-- The sign and digits after an exponent mark. -/
def signedPower (text : List Char) : Except Fault (Int × List Char) :=
  match text with
  | '-' :: rest => (someDigits rest).map fun (digits, rest) => (-(spelled digits : Int), rest)
  | '+' :: rest => (someDigits rest).map fun (digits, rest) => ((spelled digits : Int), rest)
  | text => (someDigits text).map fun (digits, rest) => ((spelled digits : Int), rest)

/-- The power of ten, if there is one. -/
def powerPart (text : List Char) : Except Fault (Option Int × List Char) :=
  match text with
  | 'e' :: rest | 'E' :: rest => (signedPower rest).map fun (power, rest) => (some power, rest)
  | text => .ok (none, text)

/-- The parts of the numeral at the head of a text, after its sign. -/
def readLiteral (negative : Bool) (text : List Char) : Except Fault (Literal × List Char) := do
  let (whole, rest) ← wholeDigits text
  let (fraction, rest) ← fractionDigits rest
  let (power, rest) ← powerPart rest
  pure (⟨negative, whole, fraction, power⟩, rest)

/-- The greatest word; integers beyond it are read as floats. -/
def wordMax : Nat := 0xffffffffffffffff

/-- Digits gathered in a word until one does not fit; the second part counts those left over. -/
def gather : Nat → List Nat → Nat × Nat
  | word, [] => (word, 0)
  | word, digit :: digits =>
    if 10 * word + digit ≤ wordMax then gather (10 * word + digit) digits
    else (word, digits.length + 1)

/-- `10 ^ power`, rounded. -/
def tenPower (power : Nat) : Binary64 := .ofRatio false (Nat.pow 10 power) 1

/-- `number * 10 ^ power`, rounded at each step; beyond the range there is no result. -/
def scale (number : Binary64) (power : Int) : Option Binary64 :=
  if power.natAbs ≤ 308 then
    if 0 ≤ power then
      let product := number.mul (tenPower power.natAbs)
      if product.isFinite then some product else none
    else some (number.div (tenPower power.natAbs))
  else if number.isZero then some number
  else if 0 ≤ power then none
  -- A power below the table is taken in steps of the greatest one in it.
  else scale (number.div (tenPower 308)) (power + 308)
termination_by (-power).toNat
decreasing_by omega

/-- The float of a literal that is no integer. -/
def Literal.float (literal : Literal) : Except Fault Numeral :=
  let (word, raised) := gather 0 literal.whole
  let (word, dropped) := gather word literal.fraction
  -- Whole digits left over raise the power; those of the fraction that fit lower it.
  let lowered := literal.fraction.length - dropped
  match scale (.ofInt word) (raised - lowered + literal.power.getD 0) with
  | none => .error .malformed
  | some size => .ok (.float (if literal.negative then size.negate else size))

/-- The number of a literal. -/
def Literal.numeral (literal : Literal) : Except Fault Numeral :=
  let word := spelled literal.whole
  if literal.fraction.isEmpty && literal.power.isNone && word ≤ wordMax then
    if !literal.negative then .ok (.integer word)
    -- A negative zero and what is below the least signed word are floats.
    else if word = 0 ∨ 0x8000000000000000 < word then .ok (.float (Binary64.ofInt word).negate)
    else .ok (.integer (-word))
  else literal.float

/-- The numeral at the head of a text, after its sign. -/
def readUnsigned (negative : Bool) (text : List Char) : Except Fault (Numeral × List Char) := do
  let (literal, rest) ← readLiteral negative text
  pure (← literal.numeral, rest)

/-- The numeral at the head of a text. -/
def readNumeral (text : List Char) : Except Fault (Numeral × List Char) :=
  match text with
  | '-' :: rest => readUnsigned true rest
  | text => readUnsigned false text

end TableKernels.Json
