import TableKernels.Wasm.Types

/-!
# Operators

The instructions that take their operands from the stack and leave one result, with their codes,
names and types. Most of them come in two widths, for numbers of 32 and of 64 bits. All operators of
the format are here but those on vectors. An operator has one code, and no other operator has it.
-/

namespace TableKernels.Wasm

/-- The width of a number: 32 or 64 bits. -/
inductive Width
  | narrow
  | wide
deriving DecidableEq

namespace Width

/-- The one of two things that belongs to a width. -/
def pick {α : Type} (width : Width) (forNarrow forWide : α) : α :=
  match width with
  | narrow => forNarrow
  | wide => forWide

/-- The type of integers of a width. -/
def int (width : Width) : ValType := width.pick .i32 .i64

/-- The type of floats of a width. -/
def float (width : Width) : ValType := width.pick .f32 .f64

end Width

/--
How two integers are compared; the order is that with a sign (`S`) or without one (`U`). These and
the other families of operators are listed in the order of their codes.
-/
inductive IntRelation
  | eq | ne | ltS | ltU | gtS | gtU | leS | leU | geS | geU
deriving DecidableEq

/-- What is counted in an integer: leading zeros, trailing zeros, or ones. -/
inductive BitCount
  | clz | ctz | popcnt
deriving DecidableEq

/-- How two integers are combined. -/
inductive IntOperation
  | add | sub | mul | divS | divU | remS | remU | and | or | xor | shl | shrS | shrU | rotl | rotr
deriving DecidableEq

/-- How two floats are compared. -/
inductive FloatRelation
  | eq | ne | lt | gt | le | ge
deriving DecidableEq

/-- What is made of one float; the middle four round it to an integer. -/
inductive FloatChange
  | abs | neg | ceil | floor | trunc | nearest | sqrt
deriving DecidableEq

/-- How two floats are combined. -/
inductive FloatOperation
  | add | sub | mul | div | min | max | copysign
deriving DecidableEq

/-- A low part of an integer whose sign is spread over the bits above it. -/
inductive SignedPart
  | narrow8 | narrow16 | wide8 | wide16 | wide32
deriving DecidableEq

/--
Operators that take their operands from the stack and leave one result. Of two widths the first is
that of the result, and a flag tells whether integers have a sign.
-/
inductive Operator
  | isZero (width : Width)
  | compare (width : Width) (relation : IntRelation)
  | compareFloat (width : Width) (relation : FloatRelation)
  | count (width : Width) (counted : BitCount)
  | combine (width : Width) (operation : IntOperation)
  | changeFloat (width : Width) (change : FloatChange)
  | combineFloat (width : Width) (operation : FloatOperation)
  /-- A wide integer is cut to its low half. -/
  | wrap
  | extend (signed : Bool)
  | extendPart (part : SignedPart)
  /-- A float becomes an integer, toward zero, if it has one. -/
  | truncate (width source : Width) (signed : Bool)
  /-- A float becomes an integer, toward zero, or the nearest that there is. -/
  | saturate (width source : Width) (signed : Bool)
  /-- An integer becomes a float. -/
  | convert (width source : Width) (signed : Bool)
  | demote
  | promote
  /-- The bits of a float become an integer. -/
  | toBits (width : Width)
  /-- The bits of an integer become a float. -/
  | ofBits (width : Width)
deriving DecidableEq

namespace Operator

/-! ## Codes -/

/-- The relations of integers. -/
def relations : List IntRelation := [.eq, .ne, .ltS, .ltU, .gtS, .gtU, .leS, .leU, .geS, .geU]

/-- The relations of floats. -/
def floatRelations : List FloatRelation := [.eq, .ne, .lt, .gt, .le, .ge]

/-- What may be counted. -/
def counts : List BitCount := [.clz, .ctz, .popcnt]

/-- The operations on integers. -/
def operations : List IntOperation :=
  [.add, .sub, .mul, .divS, .divU, .remS, .remU, .and, .or, .xor, .shl, .shrS, .shrU, .rotl, .rotr]

/-- The changes of a float. -/
def floatChanges : List FloatChange := [.abs, .neg, .ceil, .floor, .trunc, .nearest, .sqrt]

/-- The operations on floats. -/
def floatOperations : List FloatOperation := [.add, .sub, .mul, .div, .min, .max, .copysign]

/-- What makes numbers of other numbers, in the order of the codes. -/
def conversions : List Operator :=
  [wrap, truncate .narrow .narrow true, truncate .narrow .narrow false,
    truncate .narrow .wide true, truncate .narrow .wide false, extend true, extend false,
    truncate .wide .narrow true, truncate .wide .narrow false, truncate .wide .wide true,
    truncate .wide .wide false, convert .narrow .narrow true, convert .narrow .narrow false,
    convert .narrow .wide true, convert .narrow .wide false, demote, convert .wide .narrow true,
    convert .wide .narrow false, convert .wide .wide true, convert .wide .wide false, promote,
    toBits .narrow, toBits .wide, ofBits .narrow, ofBits .wide, extendPart .narrow8,
    extendPart .narrow16, extendPart .wide8, extendPart .wide16, extendPart .wide32]

/-- The operators of one byte, in the order of their codes. -/
def listed : List Operator :=
  isZero .narrow :: relations.map (compare .narrow) ++
    isZero .wide :: relations.map (compare .wide) ++
    floatRelations.map (compareFloat .narrow) ++ floatRelations.map (compareFloat .wide) ++
    counts.map (count .narrow) ++ operations.map (combine .narrow) ++
    counts.map (count .wide) ++ operations.map (combine .wide) ++
    floatChanges.map (changeFloat .narrow) ++ floatOperations.map (combineFloat .narrow) ++
    floatChanges.map (changeFloat .wide) ++ floatOperations.map (combineFloat .wide) ++
    conversions

/-- The conversions that saturate, in the order of their second codes. -/
def saturations : List Operator :=
  [saturate .narrow .narrow true, saturate .narrow .narrow false, saturate .narrow .wide true,
    saturate .narrow .wide false, saturate .wide .narrow true, saturate .wide .narrow false,
    saturate .wide .wide true, saturate .wide .wide false]

/-- The code of the first operator of one byte. -/
def firstCode : UInt8 := 0x45

/-- The operators of one byte by their codes. -/
def table : Array Operator := listed.toArray

/-- The operator with a code of one byte. -/
def ofCode? (code : UInt8) : Option Operator :=
  if firstCode ≤ code then table[(code - firstCode).toNat]? else none

/-- The operator with a second code, after the byte that announces one. -/
def ofSecondCode? (code : UInt32) : Option Operator := saturations[code.toNat]?

/-- The byte that announces a second code. -/
def extendedCode : UInt8 := 0xfc

/-- The only byte of an operator, or the last of the two of one that saturates. -/
def code : Operator → UInt8
  | isZero width => width.pick 0x45 0x50
  | compare width relation => width.pick 0x46 0x51 + UInt8.ofNat relation.ctorIdx
  | compareFloat width relation => width.pick 0x5b 0x61 + UInt8.ofNat relation.ctorIdx
  | count width counted => width.pick 0x67 0x79 + UInt8.ofNat counted.ctorIdx
  | combine width operation => width.pick 0x6a 0x7c + UInt8.ofNat operation.ctorIdx
  | changeFloat width change => width.pick 0x8b 0x99 + UInt8.ofNat change.ctorIdx
  | combineFloat width operation => width.pick 0x92 0xa0 + UInt8.ofNat operation.ctorIdx
  | wrap => 0xa7
  | truncate width source signed =>
    width.pick (source.pick 0xa8 0xaa) (source.pick 0xae 0xb0) + if signed then 0 else 1
  | extend signed => if signed then 0xac else 0xad
  | convert width source signed =>
    width.pick (source.pick 0xb2 0xb4) (source.pick 0xb7 0xb9) + if signed then 0 else 1
  | demote => 0xb6
  | promote => 0xbb
  | toBits width => width.pick 0xbc 0xbd
  | ofBits width => width.pick 0xbe 0xbf
  | extendPart part => 0xc0 + UInt8.ofNat part.ctorIdx
  | saturate width source signed =>
    width.pick (source.pick 0 2) (source.pick 4 6) + if signed then 0 else 1

/-- The written form of an operator. -/
def encode (operator : Operator) : Bytes :=
  match operator with
  | saturate _ _ _ => [extendedCode, operator.code]
  | _ => [operator.code]

/-! ## Types -/

/-- Whether an operator takes one operand, and not two. -/
def isUnary : Operator → Bool
  | compare _ _ | compareFloat _ _ | combine _ _ | combineFloat _ _ => false
  | _ => true

/-- The types of an integer before and after the sign of a part of it is spread. -/
def partType : SignedPart → ValType
  | .narrow8 | .narrow16 => .i32
  | .wide8 | .wide16 | .wide32 => .i64

/-- The type of each operand. -/
def operand : Operator → ValType
  | isZero width | compare width _ | count width _ | combine width _ => width.int
  | compareFloat width _ | changeFloat width _ | combineFloat width _ => width.float
  | wrap => .i64
  | extend _ => .i32
  | extendPart part => partType part
  | truncate _ source _ | saturate _ source _ => source.float
  | convert _ source _ => source.int
  | demote => .f64
  | promote => .f32
  | toBits width => width.float
  | ofBits width => width.int

/-- The types of the operands. -/
def operands (operator : Operator) : List ValType :=
  if operator.isUnary then [operator.operand] else [operator.operand, operator.operand]

/-- The type of the result. -/
def result : Operator → ValType
  | isZero _ | compare _ _ | compareFloat _ _ | wrap => .i32
  | count width _ | combine width _ | truncate width _ _ | saturate width _ _ | toBits width =>
    width.int
  | changeFloat width _ | combineFloat width _ | convert width _ _ | ofBits width => width.float
  | extend _ => .i64
  | extendPart part => partType part
  | demote => .f32
  | promote => .f64

/-! ## Names -/

/-- The ending of a name that says whether integers have a sign. -/
def signName (signed : Bool) : String := if signed then "_s" else "_u"

/-- The name of a relation of integers. -/
def relationName : IntRelation → String
  | .eq => "eq"
  | .ne => "ne"
  | .ltS => "lt_s"
  | .ltU => "lt_u"
  | .gtS => "gt_s"
  | .gtU => "gt_u"
  | .leS => "le_s"
  | .leU => "le_u"
  | .geS => "ge_s"
  | .geU => "ge_u"

/-- The name of a relation of floats. -/
def floatRelationName : FloatRelation → String
  | .eq => "eq"
  | .ne => "ne"
  | .lt => "lt"
  | .gt => "gt"
  | .le => "le"
  | .ge => "ge"

/-- The name of a count. -/
def countName : BitCount → String
  | .clz => "clz"
  | .ctz => "ctz"
  | .popcnt => "popcnt"

/-- The name of an operation on integers. -/
def operationName : IntOperation → String
  | .add => "add"
  | .sub => "sub"
  | .mul => "mul"
  | .divS => "div_s"
  | .divU => "div_u"
  | .remS => "rem_s"
  | .remU => "rem_u"
  | .and => "and"
  | .or => "or"
  | .xor => "xor"
  | .shl => "shl"
  | .shrS => "shr_s"
  | .shrU => "shr_u"
  | .rotl => "rotl"
  | .rotr => "rotr"

/-- The name of a change of a float. -/
def floatChangeName : FloatChange → String
  | .abs => "abs"
  | .neg => "neg"
  | .ceil => "ceil"
  | .floor => "floor"
  | .trunc => "trunc"
  | .nearest => "nearest"
  | .sqrt => "sqrt"

/-- The name of an operation on floats. -/
def floatOperationName : FloatOperation → String
  | .add => "add"
  | .sub => "sub"
  | .mul => "mul"
  | .div => "div"
  | .min => "min"
  | .max => "max"
  | .copysign => "copysign"

/-- The name of a part, behind the type of its integer. -/
def partName : SignedPart → String
  | .narrow8 | .wide8 => "extend8_s"
  | .narrow16 | .wide16 => "extend16_s"
  | .wide32 => "extend32_s"

/-- The name of an operator without the type in front of it. -/
def shortName : Operator → String
  | isZero _ => "eqz"
  | compare _ relation => relationName relation
  | compareFloat _ relation => floatRelationName relation
  | count _ counted => countName counted
  | combine _ operation => operationName operation
  | changeFloat _ change => floatChangeName change
  | combineFloat _ operation => floatOperationName operation
  | wrap => "wrap_i64"
  | extend signed => "extend_i32" ++ signName signed
  | extendPart part => partName part
  | truncate _ source signed => "trunc_" ++ source.float.name ++ signName signed
  | saturate _ source signed => "trunc_sat_" ++ source.float.name ++ signName signed
  | convert _ source signed => "convert_" ++ source.int.name ++ signName signed
  | demote => "demote_f64"
  | promote => "promote_f32"
  | toBits width => "reinterpret_" ++ width.float.name
  | ofBits width => "reinterpret_" ++ width.int.name

/-- The name of an operator: a type, which is that of the operands if these are compared. -/
def name (operator : Operator) : String :=
  let type := match operator with
    | isZero _ | compare _ _ | compareFloat _ _ => operator.operand
    | _ => operator.result
  type.name ++ "." ++ operator.shortName

/-! ## Single operators -/

/-- Whether a narrow integer is zero. -/
@[match_pattern] abbrev i32Eqz : Operator := isZero .narrow

/-- Whether two narrow integers are equal. -/
@[match_pattern] abbrev i32Eq : Operator := compare .narrow .eq

/-- Whether two wide integers are equal. -/
@[match_pattern] abbrev i64Eq : Operator := compare .wide .eq

/-- Whether a wide integer is less than another, with signs. -/
@[match_pattern] abbrev i64LtS : Operator := compare .wide .ltS

/-- Whether a wide integer is greater than another, with signs. -/
@[match_pattern] abbrev i64GtS : Operator := compare .wide .gtS

/-- Whether a wide integer is greater than another, without signs. -/
@[match_pattern] abbrev i64GtU : Operator := compare .wide .gtU

/-- Whether a wide integer is at most another, with signs. -/
@[match_pattern] abbrev i64LeS : Operator := compare .wide .leS

/-- Whether a wide integer is at most another, without signs. -/
@[match_pattern] abbrev i64LeU : Operator := compare .wide .leU

/-- The sum of two narrow integers. -/
@[match_pattern] abbrev i32Add : Operator := combine .narrow .add

/-- The difference of two narrow integers. -/
@[match_pattern] abbrev i32Sub : Operator := combine .narrow .sub

/-- The product of two narrow integers. -/
@[match_pattern] abbrev i32Mul : Operator := combine .narrow .mul

/-- The bits that are set in one of two narrow integers. -/
@[match_pattern] abbrev i32Or : Operator := combine .narrow .or

/-- The sum of two wide integers. -/
@[match_pattern] abbrev i64Add : Operator := combine .wide .add

/-- The difference of two wide integers. -/
@[match_pattern] abbrev i64Sub : Operator := combine .wide .sub

/-- The product of two wide integers. -/
@[match_pattern] abbrev i64Mul : Operator := combine .wide .mul

/-- The remainder of two wide integers without signs. -/
@[match_pattern] abbrev i64RemU : Operator := combine .wide .remU

/-- A wide integer shifted down without a sign. -/
@[match_pattern] abbrev i64ShrU : Operator := combine .wide .shrU

/-- The low half of a wide integer. -/
@[match_pattern] abbrev i32WrapI64 : Operator := wrap

/-- A narrow integer made wide without a sign. -/
@[match_pattern] abbrev i64ExtendI32U : Operator := extend false

end Operator

end TableKernels.Wasm
