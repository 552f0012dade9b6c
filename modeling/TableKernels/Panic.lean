import TableKernels.Failure

/-!
# Panics and the barrier

Code of the host may panic, and so would a kernel whose arithmetic left its word or whose index left
its table. A `Run` keeps that apart from an ordinary failure until `Run.barrier` turns it into one,
so that no panic passes an entry point. The checked operations are those that panic when the exact
result does not fit.
-/

namespace TableKernels

/-- What a panic carries: a text, or something else. -/
inductive PanicPayload
  | text (message : String)
  | other
deriving DecidableEq

/-- The text by which a panic is reported. -/
def PanicPayload.message : PanicPayload → String
  | .text message => message
  | .other => "<non-string panic payload>"

/-- The outcome of code that may fail or panic. -/
inductive Run (α : Type)
  | done (value : α)
  | failed (failure : Failure)
  | panicked (payload : PanicPayload)
deriving DecidableEq

namespace Run

/-- Goes on with the value of a finished run. -/
@[inline]
def andThen {α β : Type} (run : Run α) (next : α → Run β) : Run β :=
  match run with
  | done value => next value
  | failed failure => failed failure
  | panicked payload => panicked payload

instance : Monad Run where
  pure := done
  bind := andThen

/-- A run that may fail but does not panic. -/
def ofExcept {α : Type} : Except Failure α → Run α
  | .ok value => done value
  | .error failure => failed failure

/-- The message of a panic that a barrier caught. -/
def panicMessage (entry : EntryPoint) (payload : PanicPayload) : String :=
  "`" ++ entry.name ++ "` panicked: " ++ payload.message

/-- A panic becomes an internal trap attributed to the entry point. -/
def barrier {α : Type} (entry : EntryPoint) : Run α → Except Failure α
  | done value => .ok value
  | failed failure => .error failure
  | panicked payload =>
    .error (.internalTrap (.hostPanic entry (panicMessage entry payload)))

/-- Whether an integer is a signed 64-bit word. -/
def fitsSigned (value : Int) : Bool :=
  -0x8000000000000000 ≤ value && value < 0x8000000000000000

/-- A sum of signed words, which panics when it overflows. -/
@[inline]
def addSigned (left right : Int) : Run Int :=
  if fitsSigned (left + right) then done (left + right)
  else panicked (.text "attempt to add with overflow")

/-- A difference of signed words, which panics when it overflows. -/
@[inline]
def subSigned (left right : Int) : Run Int :=
  if fitsSigned (left - right) then done (left - right)
  else panicked (.text "attempt to subtract with overflow")

/-- A product of signed words, which panics when it overflows. -/
@[inline]
def mulSigned (left right : Int) : Run Int :=
  if fitsSigned (left * right) then done (left * right)
  else panicked (.text "attempt to multiply with overflow")

/-- A sum of unsigned words, which panics when it overflows. -/
@[inline]
def addWord (left right : Nat) : Run Nat :=
  if left + right < 0x10000000000000000 then done (left + right)
  else panicked (.text "attempt to add with overflow")

/-- A product of unsigned words, which panics when it overflows. -/
@[inline]
def mulWord (left right : Nat) : Run Nat :=
  if left * right < 0x10000000000000000 then done (left * right)
  else panicked (.text "attempt to multiply with overflow")

/-- The panic of an index outside its table. -/
def outOfTable {α : Type} (length index : Nat) : Run α :=
  panicked (.text ("index out of bounds: the len is " ++ toString length ++
    " but the index is " ++ toString index))

/-- The entry of a table at an index. -/
@[inline]
def entry {α : Type} (table : Array α) (index : Nat) : Run α :=
  if inside : index < table.size then done table[index] else outOfTable table.size index

/-- A table with another entry; an index outside of it panics. -/
@[inline]
def setEntry {α : Type} (table : Array α) (index : Nat) (value : α) : Run (Array α) :=
  if inside : index < table.size then done (table.set index value inside)
  else outOfTable table.size index

end Run

end TableKernels
