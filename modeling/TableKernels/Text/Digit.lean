/-!
# Digits

The values of hexadecimal digits, in either case; the decimal ones are those below ten.
-/

namespace TableKernels.Text

/-- The value of a digit in sixteens, of either case. -/
def hexValue? (character : Char) : Option Nat :=
  if '0' ≤ character && character ≤ '9' then some (character.toNat - 48)
  else if 'a' ≤ character && character ≤ 'f' then some (character.toNat - 87)
  else if 'A' ≤ character && character ≤ 'F' then some (character.toNat - 55)
  else none

end TableKernels.Text
