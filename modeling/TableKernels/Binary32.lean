import TableKernels.Binary64

/-!
# Binary32 numbers as words

Single precision numbers are carried from a text to a module and never computed with, so all there
is to say of them is which word lies nearest to a quotient, where a tie goes to the even
significand, and which numbers of double precision lose nothing when they are made single.
-/

namespace TableKernels

/-- A binary32 number, held as its word. -/
structure Binary32 where
  bits : UInt32
deriving DecidableEq

namespace Binary32

/-- The number of words of twenty-three bits, which is also the least normal significand. -/
def fractionCount : Nat := 0x800000

/-- The number that the bits of infinity spell. -/
def infinityWord : Nat := 255 * fractionCount

/-- The power of two at which the quotient has twenty-four significant bits, or the least power. -/
def scaleOf (numerator denominator : Nat) : Int :=
  let guess : Int := (numerator.log2 : Int) - denominator.log2 - 23
  let short := Binary64.raised numerator (-guess) <
    fractionCount * Binary64.raised denominator guess
  max (if short then guess - 1 else guess) (-149)

/-- The word, without its sign, nearest to the quotient of two naturals. -/
def magnitudeWord (numerator denominator : Nat) : Nat :=
  if numerator = 0 then 0
  else
    let scale := scaleOf numerator denominator
    let rounded := Binary64.roundHalfEven (Binary64.raised numerator (-scale))
      (Binary64.raised denominator scale)
    min ((scale + 149).toNat * fractionCount + rounded) infinityWord

/-- The number with the given sign bit and the given remaining bits. -/
def ofMagnitude (negative : Bool) (word : Nat) : Binary32 :=
  ⟨UInt32.ofNat (if negative then 0x80000000 + word else word)⟩

/-- The bits of a double precision fraction that a single precision fraction lacks. -/
def lostBits : Nat := 29

/--
Whether a number of double precision is one of single precision too. A NaN is one if it is quiet and
the lost bits of its fraction are clear.
-/
def represents (number : Binary64) : Bool :=
  if number.isFinite then
    let lost := max (lostBits : Int) (-149 - number.exponent)
    number.isZero ||
      (number.exponent ≤ 75 && number.significand % Nat.pow 2 lost.toNat == 0)
  else
    number.fraction % Nat.pow 2 lostBits == 0 &&
      (!number.isNaN || Binary64.fractionCount ≤ 2 * number.fraction)

end Binary32

end TableKernels
