import TableKernels.Compiled.Guard

/-!
# The compiled sieve

The body of `sieve(limit)`: fixed answers up to 4, then a table of one byte per number which the
quadratic forms flip, the squares clear, and a scan from the top searches. The locals after the
limit are named below.
-/

namespace TableKernels.Compiled

open Wasm

/-- The greatest argument that the compiled `sieve` accepts. -/
def sieveBound : Int64 := 2147483646

namespace SieveLocal

/-- The limit. -/
def limit : UInt32 := 0

/-- The first number of a pair. -/
def x : UInt32 := 1

/-- The second number of a pair. -/
def y : UInt32 := 2

/-- The number that a form takes. -/
def n : UInt32 := 3

/-- The number whose square is cleared. -/
def r : UInt32 := 4

/-- The square of that number. -/
def step : UInt32 := 5

/-- The index that is cleared or looked at. -/
def i : UInt32 := 6

/-- The local that holds a residue. -/
def residue : UInt32 := 7

end SieveLocal

open SieveLocal

/-- Pushes the address of the flag whose index a local holds. -/
def flagAddress (index : UInt32) : List Instr :=
  [get index, apply .i32WrapI64, const32 tableBase, apply .i32Add]

/-- Pushes whether the square of a local exceeds the limit. -/
def squareExceedsLimit (index : UInt32) : List Instr :=
  [get index, get index, apply .i64Mul, get limit, apply .i64GtS]

/-- Sets `n` to `coefficient * x * x` and `y * y` joined by an operator. -/
def quadraticForm (coefficient : Int64) (operator : Operator) : List Instr :=
  [const64 coefficient, get x, apply .i64Mul, get x, apply .i64Mul,
    get y, get y, apply .i64Mul, apply operator, set n]

/-- Pushes whether `n` is within the limit; without a sign, so a negative `n` is not. -/
def withinLimit : List Instr := [get n, get limit, apply .i64LeU]

/-- Pushes whether `n` has a residue modulo 12. -/
def hasResidue (value : Int64) : List Instr :=
  [get n, const64 12, apply .i64RemU, const64 value, apply .i64Eq]

/-- Pushes whether `n` has one of two residues modulo 12. -/
def hasEitherResidue (first second : Int64) : List Instr :=
  [get n, const64 12, apply .i64RemU, .op (.localTee residue), const64 first, apply .i64Eq,
    get residue, const64 second, apply .i64Eq, apply .i32Or]

/-- Flips the flag of the current number. -/
def toggle : List Instr :=
  flagAddress n ++ flagAddress n ++
    [.op (.i32Load8U (.first 0 0)), apply .i32Eqz, .op (.i32Store8 (.first 0 0))]

/-- Adds one to a local. -/
def increment (index : UInt32) : List Instr :=
  [get index, const64 1, apply .i64Add, set index]

/-- Flips the flag of a form's number if it is within the limit and on its residues. -/
def toggleForm (coefficient : Int64) (operator : Operator) (onResidue : List Instr) :
    List Instr :=
  quadraticForm coefficient operator ++ withinLimit ++
    [.ifThen (onResidue ++ [.ifThen toggle])]

/-- A loop that ends when the condition on the stack holds at its start. -/
def loopUntil (condition body : List Instr) : Instr :=
  .block [.loop (condition ++ .brIf 1 :: body ++ [.br 0])]

/-- Returns a fixed answer when the limit is at most a bound. -/
def fixedAnswer (bound : Int64) (answer : Int32) : List Instr :=
  [get limit, const64 bound, apply .i64LeS, .ifThen [const32 answer, .ret]]

/-- Flips the flags of the pairs of one `x`. -/
def rowLoop : List Instr :=
  [const64 1, set y,
    loopUntil (squareExceedsLimit y)
      (toggleForm 4 .i64Add (hasEitherResidue 1 5) ++
        toggleForm 3 .i64Add (hasResidue 7) ++
        [get x, get y, apply .i64GtS,
          .ifThen (toggleForm 3 .i64Sub (hasResidue 11))] ++
        increment y)]

/-- Flips the flags of all pairs. -/
def toggleLoop : List Instr :=
  [const64 1, set x, loopUntil (squareExceedsLimit x) (rowLoop ++ increment x)]

/-- Clears the multiples of `step`. -/
def clearLoop : List Instr :=
  [get step, set i,
    loopUntil [get i, get limit, apply .i64GtS]
      (flagAddress i ++
        [const32 0, .op (.i32Store8 (.first 0 0)),
          get i, get step, apply .i64Add, set i])]

/-- Clears the multiples of the squares of the numbers still flagged. -/
def squareLoop : List Instr :=
  [const64 5, set r,
    loopUntil
      [get r, get r, apply .i64Mul, .op (.localTee step), get limit, apply .i64GtS]
      (flagAddress r ++ [.op (.i32Load8U (.first 0 0)), .ifThen clearLoop] ++ increment r)]

/-- Returns the greatest flagged number. -/
def scanLoop : List Instr :=
  [get limit, set i,
    loopUntil [get i, const64 0, apply .i64LtS]
      (flagAddress i ++
        [.op (.i32Load8U (.first 0 0)), .ifThen [get i, apply .i32WrapI64, .ret],
          get i, const64 1, apply .i64Sub, set i])]

/-- Reserves the table and clears its flags. -/
def clearTable : List Instr :=
  [get limit, const64 1, apply .i64Add, const32 EntryPoint.sieve.site, .call reserveIndex,
    const32 tableBase, const32 0, get limit, const64 1, apply .i64Add, apply .i32WrapI64,
    .op (.memoryFill 0)]

/-- The body of `sieve(limit)`. -/
def sieve : Body where
  locals := [(7, .i64)]
  code :=
    argumentGuard limit .sieve sieveBound ++
      fixedAnswer 0 0 ++ fixedAnswer 1 1 ++ fixedAnswer 2 2 ++ fixedAnswer 4 3 ++
      clearTable ++ toggleLoop ++ squareLoop ++ scanLoop ++ [const32 0]

end TableKernels.Compiled
