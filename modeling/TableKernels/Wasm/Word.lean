import TableKernels.Wasm.Types

/-!
# Words

The values that running code handles: numbers as bits, and references, of which it matters only what
they refer to. A host hands no thing of its own to a module, so a reference to one is always null.
-/

namespace TableKernels.Wasm

/-- A value on the operand stack. -/
inductive Word
  | i32 (value : UInt32)
  | i64 (value : UInt64)
  | f32 (bits : UInt32)
  | f64 (bits : UInt64)
  | funcRef (function : Option UInt32)
  | hostNull
deriving DecidableEq

namespace Word

/-- The type of a word. -/
def type : Word → ValType
  | i32 _ => .i32
  | i64 _ => .i64
  | f32 _ => .f32
  | f64 _ => .f64
  | funcRef _ => .ref .func
  | hostNull => .ref .host

/-- The null reference of a type, if values of the type occur in running code. -/
def null? : RefType → Option Word
  | .func => some (.funcRef none)
  | .host => some .hostNull
  | .other => none

/-- Whether a word is a null reference. -/
def isNull : Word → Bool
  | funcRef none | hostNull => true
  | _ => false

/-- The value that a local of a type begins with, if values of the type occur in running code. -/
def zero? : ValType → Option Word
  | .i32 => some (.i32 0)
  | .i64 => some (.i64 0)
  | .f32 => some (.f32 0)
  | .f64 => some (.f64 0)
  | .ref type => null? type
  | .v128 => none

theorem type_of_null? {type : RefType} {word : Word} (null : null? type = some word) :
    word.type = .ref type := by
  cases type <;> cases null <;> rfl

theorem type_of_zero? {type : ValType} {word : Word} (first : zero? type = some word) :
    word.type = type := by
  cases type with
  | ref type => exact type_of_null? first
  | v128 => cases first
  | i32 | i64 | f32 | f64 =>
    cases first
    rfl

/-- The value as an address, which is a 32-bit or a 64-bit number without sign. -/
def address? : Word → Option Nat
  | i32 value => some value.toNat
  | i64 value => some value.toNat
  | _ => none

/-- The value of an integer with its sign; no other value has one. -/
def signed : Word → Int
  | i32 value => value.toInt32.toInt
  | i64 value => value.toInt64.toInt
  | _ => 0

/-- The value of an integer without a sign; no other value has one. -/
def unsigned (word : Word) : Nat := word.address?.getD 0

/-- The value as the 64 bits of a cell; narrow numbers take the lower half, null has none. -/
def cellBits : Word → Nat
  | i32 value | f32 value => value.toNat
  | i64 value | f64 value => value.toNat
  | funcRef _ | hostNull => 0

end Word

end TableKernels.Wasm
