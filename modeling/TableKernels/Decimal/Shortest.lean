import TableKernels.Binary64

/-!
# The shortest decimal that reads back

A finite number stands for an interval of reals: those that round to it, the two ends included
exactly when its significand is even. Among the decimals in that interval `shortest` takes one with
the fewest digits, and of those the nearest to the number. For each count of digits only the two
neighbours of the number on that decimal grid need a look: if any point of the grid lies in the
interval, so does one of them. Two neighbours at the same distance are told apart by the `Tie` rule
of the format that asks.
-/

namespace TableKernels.Decimal

/-- What becomes of a number midway between two decimals of the fewest digits. -/
inductive Tie
  | toEven
  | upward
deriving DecidableEq

/-- The positive number `digits * 10 ^ power`. -/
structure Scaled where
  digits : Nat
  power : Int
deriving DecidableEq

/-- Factors that bring decimals over `10 ^ power` and binaries over `2 ^ binary` to one unit. -/
structure Grid where
  decimal : Nat
  binary : Nat

/-- The unit common to multiples of `10 ^ power` and multiples of `2 ^ binary`. -/
def Grid.ofPowers (power binary : Int) : Grid where
  decimal := Nat.pow 10 power.toNat <<< (-binary).toNat
  binary := Nat.pow 10 (-power).toNat <<< binary.toNat

/-- The reals that round to a number, in quarters of the unit of its significand. -/
structure Interval where
  lower : Nat
  middle : Nat
  upper : Nat
  closed : Bool
  power : Int

/-- Just below a power of two the neighbours are twice as dense, so the lower half is halved. -/
def Interval.of (number : Binary64) : Interval where
  lower :=
    4 * number.significand - (if number.fraction = 0 && 1 < number.biasedExponent then 1 else 2)
  middle := 4 * number.significand
  upper := 4 * number.significand + 2
  closed := number.significand % 2 == 0
  power := number.exponent - 2

/-- Whether a multiple of the decimal unit rounds back to the number. -/
def Interval.holds (interval : Interval) (grid : Grid) (candidate : Nat) : Bool :=
  let place := candidate * grid.decimal
  let lower := interval.lower * grid.binary
  let upper := interval.upper * grid.binary
  (lower < place && place < upper) || (interval.closed && (place == lower || place == upper))

/-- The better of the two neighbours on a decimal grid, if either reads back. -/
def Interval.neighbour? (interval : Interval) (tie : Tie) (power : Int) : Option Nat :=
  let grid := Grid.ofPowers power interval.power
  let place := interval.middle * grid.binary
  let below := place / grid.decimal
  let above := below + 1
  match interval.holds grid below, interval.holds grid above with
  | false, false => none
  | true, false => some below
  | false, true => some above
  | true, true =>
    let toBelow := place - below * grid.decimal
    let toAbove := above * grid.decimal - place
    if toBelow < toAbove then some below
    else if toAbove < toBelow then some above
    else match tie with
      | .upward => some above
      | .toEven => some (if below % 2 = 0 then below else above)

/-- Whether `10 ^ power` is at most `significand * 2 ^ binary`. -/
def tenPowerLE (power : Int) (significand : Nat) (binary : Int) : Bool :=
  let grid := Grid.ofPowers power binary
  grid.decimal ≤ significand * grid.binary

/-- The power of ten of a positive number's leading digit. -/
def leadingPower (number : Binary64) : Int :=
  let guess := ((number.significand.log2 : Int) + number.exponent) * 30103 / 100000
  let reaches := fun power => tenPowerLE power number.significand number.exponent
  if reaches (guess + 1) then guess + 1 else if reaches guess then guess else guess - 1

/-- The digits without their trailing zeros, each of which moves into the power of ten. -/
def Scaled.trim : Nat → Scaled → Scaled
  | 0, scaled => scaled
  | fuel + 1, scaled =>
    if scaled.digits ≠ 0 ∧ scaled.digits % 10 = 0 then
      Scaled.trim fuel ⟨scaled.digits / 10, scaled.power + 1⟩
    else scaled

/-- Tries the grids with `17 - left + 1`, …, `17` digits; seventeen digits always read back. -/
def shortestFrom (interval : Interval) (tie : Tie) (leading : Int) : Nat → Scaled
  | 0 => ⟨interval.middle, 0⟩
  | left + 1 =>
    let power := leading - (16 - left : Nat)
    match interval.neighbour? tie power with
    | some digits => Scaled.trim 17 ⟨digits, power⟩
    | none => shortestFrom interval tie leading left

/-- The decimal of fewest digits that rounds to the size of a finite nonzero number. -/
def shortest (tie : Tie) (number : Binary64) : Scaled :=
  shortestFrom (Interval.of number) tie (leadingPower number) 17

end TableKernels.Decimal
