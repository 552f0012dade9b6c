import TableKernels.Binary32
import TableKernels.Wasm.Evaluation

/-!
# Places of operands

While a function is laid out, each operand is known by its place only: a constant needs no cell, a
copy of a local stays in the cell of the local, and what was computed has a cell of its own.
`Operator.place2` says what an operator makes of two places. Constants are combined at once, some
results are an operand or a constant whatever the other operand holds, and all others are computed.
An instruction carries a small constant within itself; a larger one joins the constants of its
function.
-/

namespace TableKernels.Wasm

/-- Where an operand waits until it is used. -/
inductive Place
  | constant (word : Word)
  /-- In the cell of a local. -/
  | ofLocal (index : Nat)
  /-- In a cell with a serial number that keeps what a local held before. -/
  | kept (serial : Nat)
  /-- In a cell of its own. -/
  | temporary
deriving DecidableEq

namespace Place

/-- Whether two operands are one and the same: they wait in one cell. -/
def sharesCell : Place → Place → Bool
  | ofLocal left, ofLocal right => left == right
  | kept left, kept right => left == right
  | _, _ => false

/-- The word of a constant. -/
def word? : Place → Option Word
  | constant word => some word
  | _ => none

/-- The index of the local in whose cell an operand waits. -/
def local? : Place → Option Nat
  | ofLocal index => some index
  | _ => none

/-- The serial number of the cell in which what a local held before waits. -/
def serial? : Place → Option Nat
  | kept serial => some serial
  | _ => none

end Place

namespace Word

/-- An integer that fits sixteen bits with a sign. -/
def isShort (word : Word) : Bool := -0x8000 ≤ word.signed && word.signed ≤ 0x7fff

/-- An integer that fits sixteen bits without a sign. -/
def isShortNatural (word : Word) : Bool := word.unsigned ≤ 0xffff

/-- A number of 32 bits, or one of 64 bits that is a number of 32 bits too. -/
def isHalf : Word → Bool
  | i32 _ | f32 _ => true
  | i64 value => -0x80000000 ≤ value.toInt64.toInt && value.toInt64.toInt ≤ 0x7fffffff
  | f64 bits => Binary32.represents ⟨bits⟩
  | funcRef _ | hostNull => false

end Word

/-- What an operator makes of places. -/
inductive Combination
  /-- The result is there without an instruction. -/
  | found (place : Place)
  /-- An instruction computes the result; it refers to constants of the function. -/
  | computed (constants : List Word)
  | trap

namespace Combination

/-- The result is a truth value that is known. -/
def decided (value : Bool) : Combination := found (.constant (truth value))

/-- An instruction computes the result from a constant, which it carries within itself or not. -/
def carrying (fits : Bool) (word : Word) : Combination := computed (if fits then [] else [word])

/-- The result is a constant that is computed at once. -/
def ofEvaluation : Evaluation → Combination
  | .result word => found (.constant word)
  | .trap _ => trap
  | .stuck => computed []

end Combination

namespace Operator

/-- What an operator makes of its one operand. -/
def place1 (operator : Operator) (place : Place) : Combination :=
  match place, operator with
  | .constant word, _ => .ofEvaluation (operator.apply1 word)
  | _, .extend false | _, .toBits _ | _, .ofBits _ => .found place
  | _, _ => .computed []

/-- What an operator makes of an operand and the same operand again. -/
def withItself (operator : Operator) (place : Place) : Combination :=
  match operator with
  | .compare _ .eq | .compare _ .leS | .compare _ .leU | .compare _ .geS | .compare _ .geU =>
    .decided true
  | .compare _ _ => .decided false
  | .combine width .sub | .combine width .xor =>
    .found (.constant (width.pick (.i32 0) (.i64 0)))
  | .combine _ .and | .combine _ .or | .combineFloat _ .min | .combineFloat _ .max
  | .combineFloat _ .copysign => .found place
  | _ => .computed []

/--
What a relation makes of an integer that is a constant on one side, and of any other integer. A
constant at the end of the range decides some relations.
-/
def compareConstant (width : Width) (relation : IntRelation) (word : Word) (onRight : Bool) :
    Combination :=
  match relation with
  | .eq | .ne => .carrying word.isShort word
  | .ltS => atBound true (!onRight) false
  | .ltU => atBound false (!onRight) false
  | .gtS => atBound true onRight false
  | .gtU => atBound false onRight false
  | .leS => atBound true onRight true
  | .leU => atBound false onRight true
  | .geS => atBound true (!onRight) true
  | .geU => atBound false (!onRight) true
where
  /-- The relation has one value if the constant is the least, or the greatest, integer. -/
  atBound (signed greatest value : Bool) : Combination :=
    let bound := if greatest then width.greatestInt signed else width.leastInt signed
    if signed then
      if word.signed = bound then .decided value else .carrying word.isShort word
    else
      if (word.unsigned : Int) = bound then .decided value else .carrying word.isShortNatural word

/-- What an operation makes of an integer and a constant on its right. -/
def operateRight (width : Width) (operation : IntOperation) (place : Place) (word : Word) :
    Combination :=
  match operation with
  | .add | .xor => if word.unsigned = 0 then .found place else .carrying word.isShort word
  | .sub =>
    if word.unsigned = 0 then .found place
    else .computed (if -0x7fff ≤ word.signed ∧ word.signed ≤ 0x8000 then [] else [word])
  | .mul =>
    if word.unsigned = 0 then .found (.constant word)
    else if word.unsigned = 1 then .found place else .carrying word.isShort word
  | .and =>
    if word.unsigned = 0 then .found (.constant word)
    else if word.signed = -1 then .found place else .carrying word.isShort word
  | .or =>
    if word.unsigned = 0 then .found place
    else if word.signed = -1 then .found (.constant word) else .carrying word.isShort word
  | .divS =>
    if word.unsigned = 0 then .trap
    else if word.unsigned = 1 then .found place else .carrying word.isShort word
  | .divU =>
    if word.unsigned = 0 then .trap
    else if word.unsigned = 1 then .found place else .carrying word.isShortNatural word
  | .remS =>
    if word.unsigned = 0 then .trap
    else if word.signed = 1 ∨ word.signed = -1 then
      .found (.constant (width.pick (.i32 0) (.i64 0)))
    else .carrying word.isShort word
  | .remU =>
    if word.unsigned = 0 then .trap
    else if word.unsigned = 1 then .found (.constant (width.pick (.i32 0) (.i64 0)))
    else .carrying word.isShortNatural word
  | .shl | .shrS | .shrU | .rotl | .rotr =>
    if word.unsigned % width.pick 32 64 = 0 then .found place else .computed []

/-- What an operation makes of an integer and a constant on its left. -/
def operateLeft (width : Width) (operation : IntOperation) (word : Word) (place : Place) :
    Combination :=
  match operation with
  | .add | .mul | .and | .or | .xor => operateRight width operation place word
  | .divU | .remU => .carrying word.isShortNatural word
  | .shl | .shrU =>
    if word.unsigned = 0 then .found (.constant word) else .carrying word.isShort word
  | .shrS | .rotl | .rotr =>
    if word.unsigned = 0 ∨ word.signed = -1 then .found (.constant word)
    else .carrying word.isShort word
  | .sub | .divS | .remS => .carrying word.isShort word

/-- What an operator on floats makes of a constant; no instruction carries one within itself. -/
def withFloat (operator : Operator) (word : Word) (onRight : Bool) : Combination :=
  match operator with
  | .combineFloat _ .copysign => .computed (if onRight then [] else [word])
  | .combineFloat width _ =>
    if (word.float? width).any width.isNan then .found (.constant word) else .computed [word]
  | .compareFloat width relation =>
    if (word.float? width).any width.isNan then .decided (relation = .ne) else .computed [word]
  | _ => .computed [word]

/-- What an operator makes of an operand and a constant on its right. -/
def withRight (operator : Operator) (place : Place) (word : Word) : Combination :=
  match operator with
  | .compare width relation => compareConstant width relation word true
  | .combine width operation => operateRight width operation place word
  | operator => operator.withFloat word true

/-- What an operator makes of an operand and a constant on its left. -/
def withLeft (operator : Operator) (word : Word) (place : Place) : Combination :=
  match operator with
  | .compare width relation => compareConstant width relation word false
  | .combine width operation => operateLeft width operation word place
  | operator => operator.withFloat word false

/-- What an operator makes of two operands. -/
def place2 (operator : Operator) (left right : Place) : Combination :=
  match left, right with
  | .constant left, .constant right => .ofEvaluation (operator.apply2 left right)
  | left, .constant right => operator.withRight left right
  | .constant left, right => operator.withLeft left right
  | left, right => if left.sharesCell right then operator.withItself left else .computed []

end Operator

end TableKernels.Wasm
