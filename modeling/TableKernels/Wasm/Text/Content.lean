import TableKernels.Wasm.Text.Names

/-!
# Content in the text of a module

The bytes of a segment are spelled by strings and by lists of numbers, each list after the type of
its numbers. Lists of vectors say how each vector is cut into lanes.
-/

namespace TableKernels.Wasm.Text

/-- A type of the numbers in a list. -/
inductive Lane
  | integer (size : Nat)
  | single
  | double
deriving DecidableEq

namespace Lane

/-- The lane with a name. -/
def ofName? : String → Option Lane
  | "i8" => some (integer 1)
  | "i16" => some (integer 2)
  | "i32" => some (integer 4)
  | "i64" => some (integer 8)
  | "f32" => some single
  | "f64" => some double
  | _ => none

/-- The bytes of a numeral, the lowest first. -/
def bytes? (lane : Lane) : Tree → Option Bytes
  | .word letters =>
    match lane with
    | integer size =>
      (Numeral.integer? (8 * size) letters.toList).map fun number =>
        LittleEndian.encode size (Int64.ofInt number).toUInt64
    | single =>
      (Numeral.binary32? letters.toList).map fun number =>
        LittleEndian.encode 4 number.bits.toUInt64
    | double =>
      (Numeral.binary64? letters.toList).map fun number => LittleEndian.encode 8 number.bits
  | _ => none

/-- The bytes of numbers in a row. -/
def allBytes? (lane : Lane) (trees : List Tree) : Option Bytes :=
  (trees.mapM lane.bytes?).map List.flatten

/-- The type and the number of lanes of a vector that is cut so. -/
def ofShape? : String → Option (Lane × Nat)
  | "i8x16" => some (integer 1, 16)
  | "i16x8" => some (integer 2, 8)
  | "i32x4" => some (integer 4, 4)
  | "i64x2" => some (integer 8, 2)
  | "f32x4" => some (single, 4)
  | "f64x2" => some (double, 2)
  | _ => none

end Lane

/-- The bytes of vectors in a row, each after its shape; each step takes a vector. -/
def vectorBytesFrom : Nat → List Tree → Option Bytes
  | _, [] => some []
  | fuel + 1, .word shape :: rest => do
    let (lane, count) ← Lane.ofShape? shape
    if rest.length < count then none
    pure ((← lane.allBytes? (rest.take count)) ++ (← vectorBytesFrom fuel (rest.drop count)))
  | _, _ :: _ => none

/-- The bytes that a part of the content spells. -/
def contentOf? : Tree → Option Bytes
  | .string content => some content
  | .list (.word "v128" :: vectors) => vectorBytesFrom vectors.length vectors
  | .list (.word name :: numerals) => do (← Lane.ofName? name).allBytes? numerals
  | _ => none

/-- All content that remains. -/
def Parse.content : Parse Bytes := fun trees =>
  (trees.mapM contentOf?).map fun parts => (parts.flatten, [])

end TableKernels.Wasm.Text
