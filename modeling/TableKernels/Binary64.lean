/-!
# Binary64 numbers as words

A `Binary64` is a 64-bit word read as a sign, eleven exponent bits and fifty-two fraction bits. A
finite word stands for `significand * 2 ^ exponent`, an exact number, and every operation here
computes that number exactly before it rounds once, to the nearest word and on a tie to the word
with an even significand. No runtime floating point takes part, so what a text or a sum turns into
can be computed inside a proof.
-/

namespace TableKernels

/-- A binary64 number, held as its word. -/
structure Binary64 where
  bits : UInt64
deriving DecidableEq, Inhabited

namespace Binary64

/-- The number of words of fifty-two bits, which is also the least normal significand. -/
def fractionCount : Nat := 0x10000000000000

/-- Whether the sign bit is set. -/
def isNegative (number : Binary64) : Bool :=
  0x8000000000000000 ≤ number.bits.toNat

/-- The fifty-two fraction bits. -/
def fraction (number : Binary64) : Nat :=
  number.bits.toNat % fractionCount

/-- The eleven exponent bits, biased by 1023. -/
def biasedExponent (number : Binary64) : Nat :=
  number.bits.toNat / fractionCount % 2048

/-- Whether a number is neither infinite nor not a number. -/
def isFinite (number : Binary64) : Bool :=
  number.biasedExponent != 2047

/-- All exponent bits are set and some fraction bit is. -/
def isNaN (number : Binary64) : Bool :=
  number.biasedExponent == 2047 && number.fraction != 0

/-- Whether a number is zero, of either sign. -/
def isZero (number : Binary64) : Bool :=
  number.bits.toNat % 0x8000000000000000 == 0

/-- The integer `m` of a finite number `± m * 2 ^ q`. -/
def significand (number : Binary64) : Nat :=
  if number.biasedExponent = 0 then number.fraction else fractionCount + number.fraction

/-- The power `q` of a finite number `± m * 2 ^ q`. -/
def exponent (number : Binary64) : Int :=
  if number.biasedExponent = 0 then -1074 else (number.biasedExponent : Int) - 1075

/-- The number that the bits of infinity spell. -/
def infinityWord : Nat := 2047 * fractionCount

/-- The numerator of `number * 2 ^ power` when the power is moved out of the denominator. -/
def raised (number : Nat) (power : Int) : Nat :=
  number <<< power.toNat

/-- The quotient rounded to the nearest integer, a tie going to the even one. -/
def roundHalfEven (numerator denominator : Nat) : Nat :=
  let floor := numerator / denominator
  let twice := 2 * (numerator % denominator)
  if denominator < twice || (twice == denominator && floor % 2 == 1) then floor + 1 else floor

/-- The power of two at which the quotient has fifty-three significant bits, or the least power. -/
def scaleOf (numerator denominator : Nat) : Int :=
  let guess : Int := (numerator.log2 : Int) - denominator.log2 - 52
  let short := raised numerator (-guess) < fractionCount * raised denominator guess
  max (if short then guess - 1 else guess) (-1074)

/-- The word, without its sign, nearest to the quotient of two naturals. -/
def magnitudeWord (numerator denominator : Nat) : Nat :=
  if numerator = 0 then 0
  else
    let scale := scaleOf numerator denominator
    let rounded := roundHalfEven (raised numerator (-scale)) (raised denominator scale)
    min ((scale + 1074).toNat * fractionCount + rounded) infinityWord

/-- The number with the given sign bit and the given remaining bits. -/
def ofMagnitude (negative : Bool) (word : Nat) : Binary64 :=
  ⟨UInt64.ofNat (if negative then 0x8000000000000000 + word else word)⟩

/-- The number nearest to `± numerator / denominator`. -/
def ofRatio (negative : Bool) (numerator denominator : Nat) : Binary64 :=
  ofMagnitude negative (magnitudeWord numerator denominator)

/-- The number nearest to an integer; zero is positive. -/
def ofInt (integer : Int) : Binary64 :=
  ofRatio (integer < 0) integer.natAbs 1

/-- The number with the other sign. -/
def negate (number : Binary64) : Binary64 :=
  ⟨number.bits ^^^ 0x8000000000000000⟩

/-- The product of two finite numbers, rounded once. -/
def mul (left right : Binary64) : Binary64 :=
  let power := left.exponent + right.exponent
  ofRatio (left.isNegative != right.isNegative)
    (raised (left.significand * right.significand) power) (raised 1 (-power))

/-- The quotient of a finite number by a finite nonzero one, rounded once. -/
def div (left right : Binary64) : Binary64 :=
  let power := left.exponent - right.exponent
  ofRatio (left.isNegative != right.isNegative)
    (raised left.significand power) (raised right.significand (-power))

end Binary64

end TableKernels
