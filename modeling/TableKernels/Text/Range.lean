/-!
# Ranges of characters

A property of characters is kept as the ranges of code points that have it, each with its first and
its last, in ascending order.
-/

namespace TableKernels.Text

/-- Whether a character lies in one of several ranges of code points. -/
def inRanges (ranges : List (Nat × Nat)) (character : Char) : Bool :=
  ranges.any fun (first, last) => first ≤ character.toNat && character.toNat ≤ last

end TableKernels.Text
