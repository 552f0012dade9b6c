import TableKernels.Binary32
import TableKernels.Wasm.Operator

/-!
# Floats

Floats of both widths are words, held as natural numbers. A finite float is a whole number of units,
the least positive float of its width, so sums, products, quotients and roots are exact numbers of
units before they are rounded once, to the nearest word and on a tie to the even one. The format
leaves the sign and the fraction of a NaN that arithmetic makes open; here it is positive and quiet,
with nothing else in its fraction.
-/

namespace TableKernels.Wasm

namespace Width

/-- The word of a float with a sign and nothing else. -/
def signWord (width : Width) : Nat := width.pick 0x80000000 0x8000000000000000

/-- The number of fractions, which is also the least normal significand. -/
def fractionCount (width : Width) : Nat := width.pick Binary32.fractionCount Binary64.fractionCount

/-- The word of the positive infinity. -/
def infinityWord (width : Width) : Nat := width.pick Binary32.infinityWord Binary64.infinityWord

/-- The word of the NaN that arithmetic makes. -/
def nanWord (width : Width) : Nat := width.infinityWord + width.fractionCount / 2

/-- The number of units in one. -/
def unitCount (width : Width) : Nat := Nat.pow 2 (width.pick 149 1074)

/-- The word without a sign nearest to a quotient. -/
def magnitudeWord (width : Width) (numerator denominator : Nat) : Nat :=
  width.pick (Binary32.magnitudeWord numerator denominator)
    (Binary64.magnitudeWord numerator denominator)

/-- A word with a sign and the remaining bits. -/
def signed (width : Width) (negative : Bool) (magnitude : Nat) : Nat :=
  if negative then width.signWord + magnitude else magnitude

/-- The word nearest to a quotient with a sign. -/
def ofRatio (width : Width) (negative : Bool) (numerator denominator : Nat) : Nat :=
  width.signed negative (width.magnitudeWord numerator denominator)

/-- The word of an infinity. -/
def infinity (width : Width) (negative : Bool) : Nat := width.signed negative width.infinityWord

/-- The word of a zero. -/
def zero (width : Width) (negative : Bool) : Nat := width.signed negative 0

end Width

/-- What the word of a float stands for. -/
inductive FloatValue
  | nan
  | infinity (negative : Bool)
  | finite (negative : Bool) (units : Nat)
deriving DecidableEq

/-! ## Words and values -/

namespace Width

/-- Whether a word has a sign. -/
def isNegative (width : Width) (word : Nat) : Bool := width.signWord ≤ word

/-- A word without its sign. -/
def magnitude (width : Width) (word : Nat) : Nat := word % width.signWord

/-- The number of units of the finite float with a word without a sign. -/
def units (width : Width) (magnitude : Nat) : Nat :=
  let exponent := magnitude / width.fractionCount
  let fraction := magnitude % width.fractionCount
  if exponent = 0 then fraction else (width.fractionCount + fraction) <<< (exponent - 1)

/-- What a word stands for. -/
def valueOf (width : Width) (word : Nat) : FloatValue :=
  let magnitude := width.magnitude word
  if width.infinityWord < magnitude then .nan
  else if magnitude = width.infinityWord then .infinity (width.isNegative word)
  else .finite (width.isNegative word) (width.units magnitude)

/-- A number with a sign. -/
def withSign (negative : Bool) (size : Nat) : Int := if negative then -(size : Int) else size

/-- A word as a number that grows with the float; both zeros have the same. -/
def rank (width : Width) (word : Nat) : Int :=
  withSign (width.isNegative word) (width.magnitude word)

/-- Whether a word is that of a NaN. -/
def isNan (width : Width) (word : Nat) : Bool := width.infinityWord < width.magnitude word

end Width

/-! ## Comparing -/

/-- Whether a relation holds between two floats; a NaN is only unequal to floats. -/
def FloatRelation.holds (relation : FloatRelation) (width : Width) (left right : Nat) : Bool :=
  if width.isNan left || width.isNan right then relation = .ne
  else
    let left := width.rank left
    let right := width.rank right
    match relation with
    | .eq => left = right
    | .ne => left ≠ right
    | .lt => left < right
    | .gt => right < left
    | .le => left ≤ right
    | .ge => right ≤ left

/-! ## Computing -/

namespace Width

/-- The sum of two floats. The sum of numbers that cancel is negative only if both are. -/
def add (width : Width) : FloatValue → FloatValue → Nat
  | .finite negative units, .finite negative' units' =>
    let sum := withSign negative units + withSign negative' units'
    if sum = 0 then width.zero (negative && negative')
    else width.ofRatio (sum < 0) sum.natAbs width.unitCount
  | .infinity negative, .infinity negative' =>
    if negative = negative' then width.infinity negative else width.nanWord
  | .infinity negative, .finite _ _ | .finite _ _, .infinity negative => width.infinity negative
  | .nan, _ | _, .nan => width.nanWord

/-- The product of two floats. -/
def mul (width : Width) : FloatValue → FloatValue → Nat
  | .finite negative units, .finite negative' units' =>
    width.ofRatio (negative != negative') (units * units') (width.unitCount * width.unitCount)
  | .infinity negative, .infinity negative' => width.infinity (negative != negative')
  | .infinity negative, .finite negative' units | .finite negative' units, .infinity negative =>
    if units = 0 then width.nanWord else width.infinity (negative != negative')
  | .nan, _ | _, .nan => width.nanWord

/-- The quotient of two floats. -/
def div (width : Width) : FloatValue → FloatValue → Nat
  | .finite negative units, .finite negative' units' =>
    if units' ≠ 0 then width.ofRatio (negative != negative') units units'
    else if units = 0 then width.nanWord else width.infinity (negative != negative')
  | .infinity negative, .finite negative' _ => width.infinity (negative != negative')
  | .finite negative _, .infinity negative' => width.zero (negative != negative')
  | .infinity _, .infinity _ | .nan, _ | _, .nan => width.nanWord

/-- The root of a natural number below so many more bits, found from the highest bit down. -/
def rootFrom (number : Nat) : Nat → Nat → Nat
  | 0, root => root
  | bits + 1, root =>
    let next := root + Nat.pow 2 bits
    rootFrom number bits (if next * next ≤ number then next else root)

/-- The root of a natural number, rounded down. -/
def root (number : Nat) : Nat := rootFrom number (number.log2 / 2 + 1) 0

/--
The root of a float. In units it has far more digits than a word keeps, so it is enough to tell
whether any more follow.
-/
def sqrt (width : Width) : FloatValue → Nat
  | .finite negative units =>
    if units = 0 then width.zero negative
    else if negative then width.nanWord
    else
      let square := units * width.unitCount
      let root := root square
      let digits := 2 * root + if root * root = square then 0 else 1
      width.ofRatio false digits (2 * width.unitCount)
  | .infinity negative => if negative then width.nanWord else width.infinity false
  | .nan => width.nanWord

/-- An integral float near a float, given how the size of a number with a sign is rounded. -/
def toIntegral (width : Width) (round : Bool → Nat → Nat → Nat) : FloatValue → Nat
  | .finite negative units => width.ofRatio negative (round negative units width.unitCount) 1
  | .infinity negative => width.infinity negative
  | .nan => width.nanWord

/-- The lesser of two floats, or the greater one; the negative zero is the lesser zero. -/
def extremum (width : Width) (greater : Bool) (left right : Nat) : Nat :=
  if width.isNan left || width.isNan right then width.nanWord
  else
    let isLess := width.rank left < width.rank right ∨
      width.rank left = width.rank right ∧ width.isNegative left
    if greater = decide isLess then right else left

end Width

/-- The word that an operation makes of two words. -/
def FloatOperation.apply (operation : FloatOperation) (width : Width) (left right : Nat) : Nat :=
  match operation with
  | .add => width.add (width.valueOf left) (width.valueOf right)
  | .sub => width.add (width.valueOf left) (width.valueOf (negated right))
  | .mul => width.mul (width.valueOf left) (width.valueOf right)
  | .div => width.div (width.valueOf left) (width.valueOf right)
  | .min => width.extremum false left right
  | .max => width.extremum true left right
  | .copysign => width.signed (width.isNegative right) (width.magnitude left)
where
  /-- The word with the other sign. -/
  negated (word : Nat) : Nat := width.signed (!width.isNegative word) (width.magnitude word)

/-- The word that is made of one word. -/
def FloatChange.apply (change : FloatChange) (width : Width) (word : Nat) : Nat :=
  match change with
  | .abs => width.magnitude word
  | .neg => width.signed (!width.isNegative word) (width.magnitude word)
  | .ceil => width.toIntegral (fun negative => if negative then down else up) (width.valueOf word)
  | .floor => width.toIntegral (fun negative => if negative then up else down) (width.valueOf word)
  | .trunc => width.toIntegral (fun _ => down) (width.valueOf word)
  | .nearest => width.toIntegral (fun _ => Binary64.roundHalfEven) (width.valueOf word)
  | .sqrt => width.sqrt (width.valueOf word)
where
  /-- A quotient rounded down. -/
  down (numerator denominator : Nat) : Nat := numerator / denominator
  /-- A quotient rounded up. -/
  up (numerator denominator : Nat) : Nat := (numerator + denominator - 1) / denominator

/-! ## Converting -/

/-- The number of integers of a width. -/
def Width.intCount (width : Width) : Nat := width.pick 0x100000000 0x10000000000000000

/-- The least integer of a width, with or without signs. -/
def Width.leastInt (width : Width) (signed : Bool) : Int :=
  if signed then -(width.intCount / 2 : Nat) else 0

/-- The greatest integer of a width, with or without signs. -/
def Width.greatestInt (width : Width) (signed : Bool) : Int :=
  (if signed then width.intCount / 2 else width.intCount : Nat) - 1

/-- How a float becomes an integer toward zero. -/
inductive Truncation
  | integer (value : Int)
  /-- There is no such integer: it would be too small or too large. -/
  | beyond (negative : Bool)
  | nan

/-- A float cut to an integer. -/
def Width.truncate (width source : Width) (signed : Bool) (word : Nat) : Truncation :=
  match source.valueOf word with
  | .nan => .nan
  | .infinity negative => .beyond negative
  | .finite negative units =>
    let value := withSign negative (units / source.unitCount)
    if width.leastInt signed ≤ value ∧ value ≤ width.greatestInt signed then .integer value
    else .beyond negative

/-- The integer nearest to a float cut to one; that of a NaN is zero. -/
def Width.saturate (width source : Width) (signed : Bool) (word : Nat) : Int :=
  match width.truncate source signed word with
  | .integer value => value
  | .beyond negative => if negative then width.leastInt signed else width.greatestInt signed
  | .nan => 0

/-- The float nearest to an integer. -/
def Width.ofInt (width : Width) (value : Int) : Nat := width.ofRatio (value < 0) value.natAbs 1

/-- The float of one width nearest to a float of another. -/
def Width.resize (width source : Width) (word : Nat) : Nat :=
  match source.valueOf word with
  | .finite negative units => width.ofRatio negative units source.unitCount
  | .infinity negative => width.infinity negative
  | .nan => width.nanWord

end TableKernels.Wasm
