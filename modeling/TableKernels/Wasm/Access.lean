import TableKernels.Wasm.Immediate
import TableKernels.Wasm.Word

/-!
# Accesses to memory

A load reads a few bytes as the low bits of a number, and a save writes the low bits of a number.
The forms of each are listed in the order of their codes. A part of an integer that is loaded is
filled up with its sign (`S`) or with zeros (`U`).
-/

namespace TableKernels.Wasm

/-- What a load reads. -/
inductive Load
  | i32 | i64 | f32 | f64
  | i32From8S | i32From8U | i32From16S | i32From16U
  | i64From8S | i64From8U | i64From16S | i64From16U | i64From32S | i64From32U
deriving DecidableEq

namespace Load

/-- All loads. -/
def listed : List Load :=
  [i32, i64, f32, f64, i32From8S, i32From8U, i32From16S, i32From16U, i64From8S, i64From8U,
    i64From16S, i64From16U, i64From32S, i64From32U]

/-- The code of the first load. -/
def firstCode : UInt8 := 0x28

/-- The code of a load. -/
def code (load : Load) : UInt8 := firstCode + UInt8.ofNat load.ctorIdx

/-- The load with a code. -/
def ofCode? (code : UInt8) : Option Load :=
  if firstCode ≤ code then listed[(code - firstCode).toNat]? else none

/-- The number of bytes that are read, as a power of two; it is also the natural alignment. -/
def sizeLog : Load → UInt32
  | i32From8S | i32From8U | i64From8S | i64From8U => 0
  | i32From16S | i32From16U | i64From16S | i64From16U => 1
  | i32 | f32 | i64From32S | i64From32U => 2
  | i64 | f64 => 3

/-- The number of bytes that are read. -/
@[inline]
def size (load : Load) : Nat := 1 <<< load.sizeLog.toNat

/-- The type of what is loaded. -/
def type : Load → ValType
  | i32 | i32From8S | i32From8U | i32From16S | i32From16U => .i32
  | i64 | i64From8S | i64From8U | i64From16S | i64From16U | i64From32S | i64From32U => .i64
  | f32 => .f32
  | f64 => .f64

/-- The word that is loaded, given the bits that are read. -/
@[inline]
def word (load : Load) (bits : UInt64) : Word :=
  match load with
  | i32 | i32From8U | i32From16U => .i32 bits.toUInt32
  | i32From8S => .i32 bits.toUInt8.toInt8.toInt32.toUInt32
  | i32From16S => .i32 bits.toUInt16.toInt16.toInt32.toUInt32
  | i64 | i64From8U | i64From16U | i64From32U => .i64 bits
  | i64From8S => .i64 bits.toUInt8.toInt8.toInt64.toUInt64
  | i64From16S => .i64 bits.toUInt16.toInt16.toInt64.toUInt64
  | i64From32S => .i64 bits.toUInt32.toInt32.toInt64.toUInt64
  | f32 => .f32 bits.toUInt32
  | f64 => .f64 bits

/-- The name of a load. -/
def name : Load → String
  | i32 => "i32.load"
  | i64 => "i64.load"
  | f32 => "f32.load"
  | f64 => "f64.load"
  | i32From8S => "i32.load8_s"
  | i32From8U => "i32.load8_u"
  | i32From16S => "i32.load16_s"
  | i32From16U => "i32.load16_u"
  | i64From8S => "i64.load8_s"
  | i64From8U => "i64.load8_u"
  | i64From16S => "i64.load16_s"
  | i64From16U => "i64.load16_u"
  | i64From32S => "i64.load32_s"
  | i64From32U => "i64.load32_u"

end Load

/-- What a save writes. -/
inductive Save
  | i32 | i64 | f32 | f64 | i32To8 | i32To16 | i64To8 | i64To16 | i64To32
deriving DecidableEq

namespace Save

/-- All saves. -/
def listed : List Save := [i32, i64, f32, f64, i32To8, i32To16, i64To8, i64To16, i64To32]

/-- The code of the first save. -/
def firstCode : UInt8 := 0x36

/-- The code of a save. -/
def code (save : Save) : UInt8 := firstCode + UInt8.ofNat save.ctorIdx

/-- The save with a code. -/
def ofCode? (code : UInt8) : Option Save :=
  if firstCode ≤ code then listed[(code - firstCode).toNat]? else none

/-- The number of bytes that are written, as a power of two; it is also the natural alignment. -/
def sizeLog : Save → UInt32
  | i32To8 | i64To8 => 0
  | i32To16 | i64To16 => 1
  | i32 | f32 | i64To32 => 2
  | i64 | f64 => 3

/-- The number of bytes that are written. -/
@[inline]
def size (save : Save) : Nat := 1 <<< save.sizeLog.toNat

/-- The type of what is saved. -/
def type : Save → ValType
  | i32 | i32To8 | i32To16 => .i32
  | i64 | i64To8 | i64To16 | i64To32 => .i64
  | f32 => .f32
  | f64 => .f64

/-- The bits of a word of the type of a save. -/
@[inline]
def bits? (save : Save) (word : Word) : Option UInt64 :=
  match save, word with
  | i32, .i32 value | i32To8, .i32 value | i32To16, .i32 value => some value.toUInt64
  | i64, .i64 value | i64To8, .i64 value | i64To16, .i64 value | i64To32, .i64 value => some value
  | f32, .f32 bits => some bits.toUInt64
  | f64, .f64 bits => some bits
  | _, _ => none

/-- The name of a save. -/
def name : Save → String
  | i32 => "i32.store"
  | i64 => "i64.store"
  | f32 => "f32.store"
  | f64 => "f64.store"
  | i32To8 => "i32.store8"
  | i32To16 => "i32.store16"
  | i64To8 => "i64.store8"
  | i64To16 => "i64.store16"
  | i64To32 => "i64.store32"

end Save

end TableKernels.Wasm
