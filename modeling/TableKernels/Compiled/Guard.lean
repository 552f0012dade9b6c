import TableKernels.Failure
import TableKernels.Layout
import TableKernels.Wasm.Module

/-!
# Guards

A guard stops compiled code before it touches memory: it reports four integers through the imported
`abort` and then traps, so that the host sees both. `argumentGuard` refuses an argument below zero
or above a maximum; `reserve` grows memory to fit a table or reports that it cannot.
-/

namespace TableKernels.Compiled

open Wasm

/-- The imported function that takes a diagnostic. -/
def abortIndex : UInt32 := 0

/-- The imported function that calls the callback. -/
def callbackIndex : UInt32 := 1

/-- The number of imported functions. -/
def importCount : Nat := 2

/-- The function behind `update_memory`. -/
def updateMemoryIndex : UInt32 := 2

/-- The function behind `invoke_callback`. -/
def invokeCallbackIndex : UInt32 := 3

/-- The function behind `fibonacci`. -/
def fibonacciIndex : UInt32 := 4

/-- The function behind `sieve`. -/
def sieveIndex : UInt32 := 5

/-- The index of `reserve`, which is not exported. -/
def reserveIndex : UInt32 := 6

/-- The number of functions that the module defines. -/
def functionCount : Nat := 5

/-- The global that holds the constant. -/
def constantIndex : UInt32 := 0

/-- The global that holds the counter. -/
def counterIndex : UInt32 := 1

/-- The global that holds the snapshot. -/
def snapshotIndex : UInt32 := 2

/-- A constant of 32 bits. -/
def const32 (value : Int32) : Instr := .op (.i32Const value.toUInt32)

/-- A constant of 64 bits. -/
def const64 (value : Int64) : Instr := .op (.i64Const value.toUInt64)

/-- Pushes a local. -/
def get (index : UInt32) : Instr := .op (.localGet index)

/-- Pops a local. -/
def set (index : UInt32) : Instr := .op (.localSet index)

/-- Applies an operator. -/
def apply (operator : Operator) : Instr := .op (.numeric operator)

/-- The start of scratch space as a 32-bit address. -/
def tableBase : Int32 := 65536

/-- Aborts when the condition on the stack holds, with the low bits of a local as the column. -/
def abortIf (code site line : Int32) (columnLocal : UInt32) : List Instr :=
  [.ifThen
    [const32 code, const32 site, const32 line, get columnLocal, apply .i32WrapI64,
      .call abortIndex, .unreachable]]

/-- Refuses the value of a 64-bit local below zero or above `greatest`. -/
def argumentGuard (param : UInt32) (entry : EntryPoint) (greatest : Int64) : List Instr :=
  [get param, const64 0, apply .i64LtS] ++
    abortIf AbortCode.invalidArgument.number entry.site ArgumentCheck.negative.line param ++
    [get param, const64 greatest, apply .i64GtS] ++
    abortIf AbortCode.invalidArgument.number entry.site ArgumentCheck.exceedsIndexRange.line param

/--
The body of `reserve(bytes, site)`: the pages that a table of so many bytes needs are its bytes and
the host's region divided by the page size, rounded up; memory grows by those it lacks.
-/
def reserve : Body where
  locals := [(1, .i64)]
  code :=
    [get 0, const64 131071, apply .i64Add, const64 16, apply .i64ShrU, set 2,
      get 2, .op (.memorySize 0), apply .i64ExtendI32U, apply .i64GtU,
      .ifThen
        [get 2, .op (.memorySize 0), apply .i64ExtendI32U, apply .i64Sub, apply .i32WrapI64,
          .op (.memoryGrow 0), const32 (-1), apply .i32Eq,
          .ifThen
            [const32 AbortCode.outOfMemory.number, get 1, const32 0, get 0, apply .i32WrapI64,
              .call abortIndex, .unreachable]]]

end TableKernels.Compiled
