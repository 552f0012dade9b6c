import TableKernels.Decimal.Style

/-!
# Scalars

Arguments and results that cross the boundary of a kernel module, with their types.
-/

namespace TableKernels

/-- The types of scalars that cross the boundary. -/
inductive ScalarType
  | i32
  | i64
  | f64
deriving DecidableEq

/-- The name of a type. -/
def ScalarType.name : ScalarType → String
  | .i32 => "i32"
  | .i64 => "i64"
  | .f64 => "f64"

/-- A scalar argument or result. -/
inductive Scalar
  | i32 (value : Int32)
  | i64 (value : Int64)
  | f64 (value : Binary64)
deriving DecidableEq

namespace Scalar

/-- The type of a scalar. -/
def type : Scalar → ScalarType
  | i32 _ => .i32
  | i64 _ => .i64
  | f64 _ => .f64

/-- An integer scalar widened with its sign; floats have none. -/
def toInt64? : Scalar → Option Int64
  | i32 value => some value.toInt64
  | i64 value => some value
  | f64 _ => none

/-- A float scalar; integers have none. -/
def toBinary64? : Scalar → Option Binary64
  | f64 value => some value
  | _ => none

/-- The text of a scalar, with its type behind it. -/
def text : Scalar → String
  | i32 value => toString value.toInt ++ "i32"
  | i64 value => toString value.toInt ++ "i64"
  | f64 value => Decimal.plainText value ++ "f64"

end Scalar

end TableKernels
