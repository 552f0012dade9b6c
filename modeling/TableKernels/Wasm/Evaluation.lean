import TableKernels.Wasm.Float
import TableKernels.Wasm.Word

/-!
# Evaluation of operators

What an operator makes of the words that it takes: a word, or a trap when there is no such number.
-/

namespace TableKernels.Wasm

/-- Why code stopped. -/
inductive Trap
  | unreachable
  | memoryOutOfBounds
  | tableOutOfBounds
  /-- A call through a table found a null reference. -/
  | nullReference
  | divisionByZero
  | integerOverflow
  /-- A NaN was to become an integer. -/
  | notANumber
  /-- A call through a table found a function of another type. -/
  | wrongSignature
  | stackExhausted
deriving DecidableEq

/-- The message of a trap. -/
def Trap.message : Trap → String
  | unreachable => "wasm `unreachable` instruction executed"
  | memoryOutOfBounds => "out of bounds memory access"
  | tableOutOfBounds => "undefined element: out of bounds table access"
  | nullReference => "uninitialized element 2"
  | divisionByZero => "integer divide by zero"
  | integerOverflow => "integer overflow"
  | notANumber => "invalid conversion to integer"
  | wrongSignature => "indirect call type mismatch"
  | stackExhausted => "call stack exhausted"

/-- A truth value as the number one or zero. -/
def truth (value : Bool) : Word := .i32 (if value then 1 else 0)

/-- What an operator makes of operands of its types. -/
inductive Evaluation
  | result (word : Word)
  | trap (trap : Trap)
  | stuck

/-- What is made of a value that may not be there. -/
@[inline]
def Evaluation.ofOption {α : Type} (value? : Option α) (evaluate : α → Evaluation) : Evaluation :=
  match value? with
  | some value => evaluate value
  | none => .stuck

/-! ## Words as numbers -/

namespace Word

/-- The bits of a float of a width. -/
def float? : Width → Word → Option Nat
  | .narrow, f32 bits => some bits.toNat
  | .wide, f64 bits => some bits.toNat
  | _, _ => none

/-- The float of a width with some bits. -/
def ofFloat : Width → Nat → Word
  | .narrow, bits => f32 (UInt32.ofNat bits)
  | .wide, bits => f64 (UInt64.ofNat bits)

/-- The integer of a width, with or without its sign. -/
def int? : Width → Bool → Word → Option Int
  | .narrow, true, i32 value => some value.toInt32.toInt
  | .narrow, false, i32 value => some value.toNat
  | .wide, true, i64 value => some value.toInt64.toInt
  | .wide, false, i64 value => some value.toNat
  | _, _, _ => none

/-- The integer of a width, of which only the low bits are kept. -/
def ofInt : Width → Int → Word
  | .narrow, value => i32 (UInt32.ofInt value)
  | .wide, value => i64 (UInt64.ofInt value)

end Word

/-! ## Integers -/

/-- A signed 32-bit quotient, toward zero. -/
def divide32 (left right : Int32) : Evaluation :=
  if right = 0 then .trap .divisionByZero
  else if left = Int32.minValue ∧ right = -1 then .trap .integerOverflow
  else .result (.i32 (left / right).toUInt32)

/-- A signed 64-bit quotient, toward zero. -/
def divide64 (left right : Int64) : Evaluation :=
  if right = 0 then .trap .divisionByZero
  else if left = Int64.minValue ∧ right = -1 then .trap .integerOverflow
  else .result (.i64 (left / right).toUInt64)

/-- A word, unless it is the outcome of a division by zero. -/
@[inline]
def Evaluation.unlessZero (isZero : Bool) (word : Word) : Evaluation :=
  if isZero then .trap .divisionByZero else .result word

/-- Whether a relation holds between two integers of 32 bits. -/
@[inline]
def IntRelation.holds32 (relation : IntRelation) (left right : UInt32) : Bool :=
  match relation with
  | .eq => left == right
  | .ne => left != right
  | .ltS => left.toInt32 < right.toInt32
  | .ltU => left < right
  | .gtS => right.toInt32 < left.toInt32
  | .gtU => right < left
  | .leS => left.toInt32 ≤ right.toInt32
  | .leU => left ≤ right
  | .geS => right.toInt32 ≤ left.toInt32
  | .geU => right ≤ left

/-- Whether a relation holds between two integers of 64 bits. -/
@[inline]
def IntRelation.holds64 (relation : IntRelation) (left right : UInt64) : Bool :=
  match relation with
  | .eq => left == right
  | .ne => left != right
  | .ltS => left.toInt64 < right.toInt64
  | .ltU => left < right
  | .gtS => right.toInt64 < left.toInt64
  | .gtU => right < left
  | .leS => left.toInt64 ≤ right.toInt64
  | .leU => left ≤ right
  | .geS => right.toInt64 ≤ left.toInt64
  | .geU => right ≤ left

/-- What an operation makes of two integers of 32 bits. -/
@[inline]
def IntOperation.apply32 (operation : IntOperation) (left right : UInt32) : Evaluation :=
  match operation with
  | .add => .result (.i32 (left + right))
  | .sub => .result (.i32 (left - right))
  | .mul => .result (.i32 (left * right))
  | .divS => divide32 left.toInt32 right.toInt32
  | .divU => .unlessZero (right = 0) (.i32 (left / right))
  | .remS => .unlessZero (right = 0) (.i32 (left.toInt32 % right.toInt32).toUInt32)
  | .remU => .unlessZero (right = 0) (.i32 (left % right))
  | .and => .result (.i32 (left &&& right))
  | .or => .result (.i32 (left ||| right))
  | .xor => .result (.i32 (left ^^^ right))
  | .shl => .result (.i32 (left <<< (right % 32)))
  | .shrS => .result (.i32 (left.toInt32 >>> (right % 32).toInt32).toUInt32)
  | .shrU => .result (.i32 (left >>> (right % 32)))
  | .rotl => .result (.i32 (.ofBitVec (left.toBitVec.rotateLeft (right.toNat % 32))))
  | .rotr => .result (.i32 (.ofBitVec (left.toBitVec.rotateRight (right.toNat % 32))))

/-- What an operation makes of two integers of 64 bits. -/
@[inline]
def IntOperation.apply64 (operation : IntOperation) (left right : UInt64) : Evaluation :=
  match operation with
  | .add => .result (.i64 (left + right))
  | .sub => .result (.i64 (left - right))
  | .mul => .result (.i64 (left * right))
  | .divS => divide64 left.toInt64 right.toInt64
  | .divU => .unlessZero (right = 0) (.i64 (left / right))
  | .remS => .unlessZero (right = 0) (.i64 (left.toInt64 % right.toInt64).toUInt64)
  | .remU => .unlessZero (right = 0) (.i64 (left % right))
  | .and => .result (.i64 (left &&& right))
  | .or => .result (.i64 (left ||| right))
  | .xor => .result (.i64 (left ^^^ right))
  | .shl => .result (.i64 (left <<< (right % 64)))
  | .shrS => .result (.i64 (left.toInt64 >>> (right % 64).toInt64).toUInt64)
  | .shrU => .result (.i64 (left >>> (right % 64)))
  | .rotl => .result (.i64 (.ofBitVec (left.toBitVec.rotateLeft (right.toNat % 64))))
  | .rotr => .result (.i64 (.ofBitVec (left.toBitVec.rotateRight (right.toNat % 64))))

/-- What is counted in the bits of an integer. -/
def BitCount.apply {bits : Nat} (counted : BitCount) (value : BitVec bits) : BitVec bits :=
  match counted with
  | .clz => value.clz
  | .ctz => value.ctz
  | .popcnt => value.cpop

/-- A word with the sign of a part spread over the bits above it. -/
def SignedPart.apply : SignedPart → Word → Evaluation
  | .narrow8, .i32 value => .result (.i32 value.toUInt8.toInt8.toInt32.toUInt32)
  | .narrow16, .i32 value => .result (.i32 value.toUInt16.toInt16.toInt32.toUInt32)
  | .wide8, .i64 value => .result (.i64 value.toUInt8.toInt8.toInt64.toUInt64)
  | .wide16, .i64 value => .result (.i64 value.toUInt16.toInt16.toInt64.toUInt64)
  | .wide32, .i64 value => .result (.i64 value.toUInt32.toInt32.toInt64.toUInt64)
  | _, _ => .stuck

/-! ## Operators -/

/-- The integer that a float becomes, or a trap. -/
def Evaluation.ofTruncation (width : Width) : Truncation → Evaluation
  | .integer value => .result (.ofInt width value)
  | .beyond _ => .trap .integerOverflow
  | .nan => .trap .notANumber

namespace Operator

/-- What an operator makes of one operand. -/
@[inline]
def apply1 (operator : Operator) (operand : Word) : Evaluation :=
  match operator, operand with
  | isZero .narrow, .i32 value => .result (truth (value == 0))
  | isZero .wide, .i64 value => .result (truth (value == 0))
  | wrap, .i64 value => .result (.i32 value.toUInt32)
  | extend true, .i32 value => .result (.i64 value.toInt32.toInt64.toUInt64)
  | extend false, .i32 value => .result (.i64 value.toUInt64)
  | extendPart part, operand => part.apply operand
  | count .narrow counted, .i32 value => .result (.i32 (.ofBitVec (counted.apply value.toBitVec)))
  | count .wide counted, .i64 value => .result (.i64 (.ofBitVec (counted.apply value.toBitVec)))
  | changeFloat width change, operand =>
    .ofOption (operand.float? width) fun bits => .result (.ofFloat width (change.apply width bits))
  | truncate width source signed, operand =>
    .ofOption (operand.float? source) fun bits =>
      .ofTruncation width (width.truncate source signed bits)
  | saturate width source signed, operand =>
    .ofOption (operand.float? source) fun bits =>
      .result (.ofInt width (width.saturate source signed bits))
  | convert width source signed, operand =>
    .ofOption (operand.int? source signed) fun value => .result (.ofFloat width (width.ofInt value))
  | demote, .f64 bits => .result (.ofFloat .narrow (Width.narrow.resize .wide bits.toNat))
  | promote, .f32 bits => .result (.ofFloat .wide (Width.wide.resize .narrow bits.toNat))
  | toBits .narrow, .f32 bits => .result (.i32 bits)
  | toBits .wide, .f64 bits => .result (.i64 bits)
  | ofBits .narrow, .i32 value => .result (.f32 value)
  | ofBits .wide, .i64 value => .result (.f64 value)
  | _, _ => .stuck

/-- What an operator makes of two operands. -/
@[inline]
def apply2 (operator : Operator) (left right : Word) : Evaluation :=
  match operator, left, right with
  | combine .narrow operation, .i32 left, .i32 right => operation.apply32 left right
  | combine .wide operation, .i64 left, .i64 right => operation.apply64 left right
  | compare .narrow relation, .i32 left, .i32 right => .result (truth (relation.holds32 left right))
  | compare .wide relation, .i64 left, .i64 right => .result (truth (relation.holds64 left right))
  | combineFloat width operation, left, right =>
    .ofOption (left.float? width) fun left => .ofOption (right.float? width) fun right =>
      .result (.ofFloat width (operation.apply width left right))
  | compareFloat width relation, left, right =>
    .ofOption (left.float? width) fun left => .ofOption (right.float? width) fun right =>
      .result (truth (relation.holds width left right))
  | _, _, _ => .stuck

end Operator

end TableKernels.Wasm
