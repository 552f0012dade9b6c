import TableKernels.Panic

/-!
# Callbacks

A host callback takes a 64-bit number and gives one back, or panics. It may keep state of its own,
so what it replies depends on everything that it was handed before; `Callback.call` therefore
returns the callback as it is afterwards.
-/

namespace TableKernels

/-- What a callback does with a number. -/
inductive Reply
  | value (next : Int64)
  | panic (payload : PanicPayload)
deriving DecidableEq

/-- A callback together with the numbers that it was handed so far, the latest first. -/
structure Callback where
  reply : List Int64 → Int64 → Reply
  heard : List Int64

/-- A callback that has heard nothing. -/
def Callback.new (reply : List Int64 → Int64 → Reply) : Callback := ⟨reply, []⟩

/-- What a callback replies to a number, and the callback after it has heard it. -/
def Callback.call (callback : Callback) (value : Int64) : Reply × Callback :=
  (callback.reply callback.heard value, ⟨callback.reply, value :: callback.heard⟩)

/-- A reply as a run: a panic is not yet caught. -/
def Reply.run : Reply → Run Int64
  | .value next => .done next
  | .panic payload => .panicked payload

end TableKernels
