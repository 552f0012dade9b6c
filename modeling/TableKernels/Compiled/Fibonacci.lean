import TableKernels.Compiled.Guard

/-!
# Compiled Fibonacci numbers

The body of `fibonacci(n)`. It reserves a table of `n + 2` words, seeds it with 0 and 1, fills it
from the bottom up and returns entry `n`. Local 1 counts, local 2 is the address of the entry being
filled.
-/

namespace TableKernels.Compiled

open Wasm

/-- The greatest argument that the compiled `fibonacci` accepts. -/
def fibonacciBound : Int64 := 2147483645

/-- Pushes the address of the word whose index a local holds. -/
def wordAddress (index : UInt32) : List Instr :=
  [get index, apply .i32WrapI64, const32 8, apply .i32Mul, const32 tableBase, apply .i32Add]

/-- Fills one entry after another while the count is at most `n`. -/
def fillLoop : List Instr :=
  [get 1, get 0, apply .i64GtS, .brIf 1] ++ wordAddress 1 ++
    [set 2, get 2,
      get 2, const32 8, apply .i32Sub, .op (.i64Load (.first 3 0)),
      get 2, const32 16, apply .i32Sub, .op (.i64Load (.first 3 0)),
      apply .i64Add, .op (.i64Store (.first 3 0)),
      get 1, const64 1, apply .i64Add, set 1, .br 0]

/-- The body of `fibonacci(n)`. -/
def fibonacci : Body where
  locals := [(1, .i64), (1, .i32)]
  code :=
    argumentGuard 0 .fibonacci fibonacciBound ++
      [get 0, const64 2, apply .i64Add, const64 8, apply .i64Mul,
        const32 EntryPoint.fibonacci.site, .call reserveIndex,
        const32 tableBase, const64 0, .op (.i64Store (.first 3 0)),
        const32 tableBase, const64 1, .op (.i64Store (.first 3 8)),
        const64 2, set 1,
        .block [.loop fillLoop]] ++
      wordAddress 0 ++ [.op (.i64Load (.first 3 0))]

end TableKernels.Compiled
