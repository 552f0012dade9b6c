import TableKernels.Decimal.Shortest

/-!
# Writing a number in decimal

A `Style` fixes what a format decides about the shortest digits: which powers of ten are written
with all their zeros, whether a whole number keeps a point and a zero, and which way a tie goes.
Two formats of this library write numbers, `Style.json` for data and `Style.plain` for messages.
-/

namespace TableKernels.Decimal

/-- How a format lays out the digits of a finite number. -/
structure Style where
  tie : Tie
  /-- The least and the greatest leading power written without an exponent; `none` for all. -/
  positional : Option (Int × Int)
  /-- A whole number written without an exponent ends in a point and a zero. -/
  keepsPoint : Bool

/-- Data: `0.00001` to `1000000000000000.0` in full, other sizes as `1.5e-6` or `1e+16`. -/
def Style.json : Style := ⟨.toEven, some (-5, 15), true⟩

/-- Messages: every number in full, whole numbers without a point. -/
def Style.plain : Style := ⟨.upward, none, false⟩

/-- Whether a number with this leading power is written without an exponent. -/
def Style.isPositional (style : Style) (leading : Int) : Bool :=
  match style.positional with
  | none => true
  | some (least, greatest) => least ≤ leading && leading ≤ greatest

/-- The decimal digits of a number. -/
def digitsOf (number : Nat) : List Char := Nat.toDigits 10 number

/-- So many zeros. -/
def zeros (count : Nat) : List Char := List.replicate count '0'

/-- The digits with a decimal point at their power of ten. -/
def positionalText (keepsPoint : Bool) (digits : List Char) (power : Int) : List Char :=
  if 0 ≤ power then
    digits ++ zeros power.toNat ++ (if keepsPoint then ['.', '0'] else [])
  else
    let places := (-power).toNat
    if places < digits.length then
      digits.take (digits.length - places) ++ '.' :: digits.drop (digits.length - places)
    else '0' :: '.' :: zeros (places - digits.length) ++ digits

/-- The digits as one digit, a point and the rest, followed by the leading power of ten. -/
def exponentText (digits : List Char) (leading : Int) : List Char :=
  let mantissa := match digits with
    | first :: second :: rest => first :: '.' :: second :: rest
    | short => short
  mantissa ++ 'e' :: (if leading < 0 then '-' else '+') :: digitsOf leading.natAbs

/-- The text of a finite number. -/
def Style.text (style : Style) (number : Binary64) : String :=
  let sign := if number.isNegative then ['-'] else []
  let body :=
    if number.isZero then positionalText style.keepsPoint ['0'] 0
    else
      let scaled := shortest style.tie number
      let digits := digitsOf scaled.digits
      let leading := scaled.power + digits.length - 1
      if style.isPositional leading then positionalText style.keepsPoint digits scaled.power
      else exponentText digits leading
  String.ofList (sign ++ body)

/-- The text of any number in a message: `NaN`, `inf` and `-inf` have names. -/
def plainText (number : Binary64) : String :=
  if number.isFinite then Style.plain.text number
  else if number.isNaN then "NaN"
  else if number.isNegative then "-inf" else "inf"

end TableKernels.Decimal
