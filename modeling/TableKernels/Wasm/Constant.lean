import TableKernels.Wasm.Instr
import TableKernels.Wasm.Word

/-!
# Constant expressions

The first value of a global and the place of a segment are given by a few steps that push words and
combine integers. A constant has a value exactly when its steps leave one word; it cannot trap. No
host supplies globals, so constants do not read any.
-/

namespace TableKernels.Wasm

/-- A step of a constant expression. -/
inductive ConstantStep
  | push (word : Word)
  | apply (operator : Operator)
deriving DecidableEq

namespace ConstantStep

/-- The stack after a step: only sums, differences and products of integers are combined. -/
def run? : ConstantStep → List Word → Option (List Word)
  | push word, stack => some (word :: stack)
  | apply .i32Add, .i32 right :: .i32 left :: rest => some (.i32 (left + right) :: rest)
  | apply .i32Sub, .i32 right :: .i32 left :: rest => some (.i32 (left - right) :: rest)
  | apply .i32Mul, .i32 right :: .i32 left :: rest => some (.i32 (left * right) :: rest)
  | apply .i64Add, .i64 right :: .i64 left :: rest => some (.i64 (left + right) :: rest)
  | apply .i64Sub, .i64 right :: .i64 left :: rest => some (.i64 (left - right) :: rest)
  | apply .i64Mul, .i64 right :: .i64 left :: rest => some (.i64 (left * right) :: rest)
  | apply _, _ => none

/-- The written form of a step. -/
def encode : ConstantStep → Bytes
  | push (.i32 value) => (Op.i32Const value).encode
  | push (.i64 value) => (Op.i64Const value).encode
  | push (.f32 bits) => (Op.f32Const bits).encode
  | push (.f64 bits) => (Op.f64Const bits).encode
  | push (.funcRef none) => (Op.refNull .func).encode
  | push (.funcRef (some function)) => (Op.refFunc function).encode
  | push .hostNull => (Op.refNull .host).encode
  | apply operator => operator.encode

/-- The step that a plain instruction is. -/
def ofOp? : Op → Option ConstantStep
  | .i32Const value => some (push (.i32 value))
  | .i64Const value => some (push (.i64 value))
  | .f32Const bits => some (push (.f32 bits))
  | .f64Const bits => some (push (.f64 bits))
  | .refNull type => (Word.null? type).map push
  | .refFunc function => some (push (.funcRef (some function)))
  | .numeric operator => some (apply operator)
  | _ => none

/-- A step whose first byte was read. -/
def decode (code : UInt8) : Decoder ConstantStep := do
  match ofOp? (← Op.decode code) with
  | some step => return step
  | none => Decoder.fail

/-- The function that a step refers to. -/
def function? : ConstantStep → Option UInt32
  | push (.funcRef function) => function
  | _ => none

end ConstantStep

/-- A constant expression: its steps in a row. -/
abbrev Constant : Type := List ConstantStep

namespace Constant

/-- The constant that only pushes a word. -/
def ofWord (word : Word) : Constant := [.push word]

/-- The value of a constant, if its steps leave one. -/
def value? (constant : Constant) : Option Word :=
  match constant.foldlM (fun stack step => step.run? stack) [] with
  | some [word] => some word
  | _ => none

/-- The functions that a constant refers to. -/
def functions (constant : Constant) : List UInt32 := constant.filterMap (·.function?)

/-- Whether a constant has a value of a type and refers only to functions that exist. -/
def isValid (constant : Constant) (type : ValType) (functionCount : Nat) : Bool :=
  ((value? constant).any fun word => word.type = type) &&
    constant.functions.all (·.toNat < functionCount)

/-- The written form of a constant, up to its end. -/
def encode (constant : Constant) : Bytes := constant.flatMap (·.encode) ++ [endCode]

/-- A constant up to its end; each step takes a byte. -/
def decodeFrom : Nat → Decoder Constant
  | 0 => Decoder.fail
  | fuel + 1 => do
    let code ← Decoder.byte
    if code == endCode then return []
    else
      let step ← ConstantStep.decode code
      return step :: (← decodeFrom fuel)

/-- A constant up to its end. -/
def decode : Decoder Constant := fun bytes => decodeFrom (bytes.length + 1) bytes

end Constant

end TableKernels.Wasm
