import TableKernels.EntryPoint

/-!
# Failures of a kernel

A kernel that stops early says why in four integers, an `Abort`. A host sees that, or a fault
without one, as a `TrapReport`, and every entry point fails with a `Failure`. The wording of each is
one function.
-/

namespace TableKernels

/-- The four integers of a diagnostic: a code, the site, the check and the low bits of a value. -/
structure Abort where
  code : Int32
  file : Int32
  line : Int32
  column : Int32
deriving DecidableEq

/-- The codes of a diagnostic. -/
inductive AbortCode
  | invalidArgument
  | outOfMemory
  | outOfBounds
  | hostPanic
deriving DecidableEq

/-- The number of a code in a diagnostic. -/
def AbortCode.number : AbortCode → Int32
  | .invalidArgument => 1
  | .outOfMemory => 2
  | .outOfBounds => 3
  | .hostPanic => 4

/-- The entry point whose site a diagnostic names. -/
def Abort.entryPoint? (abort : Abort) : Option EntryPoint :=
  EntryPoint.ofSite? abort.file

/-- The text of a diagnostic. -/
def Abort.text (abort : Abort) : String :=
  "abort(code=" ++ toString abort.code.toInt ++ ", file=" ++ toString abort.file.toInt ++
    ", line=" ++ toString abort.line.toInt ++ ", column=" ++ toString abort.column.toInt ++ ")"

/-- The range checks that an argument can fail. -/
inductive ArgumentCheck
  | negative
  | exceedsIndexRange
  | exceedsHostLimit
deriving DecidableEq

namespace ArgumentCheck

/-- The name of a check. -/
def name : ArgumentCheck → String
  | negative => "negative"
  | exceedsIndexRange => "exceeds_index_range"
  | exceedsHostLimit => "exceeds_host_limit"

/-- The number of a check in the line of a diagnostic. -/
def line : ArgumentCheck → Int32
  | negative => 1
  | exceedsIndexRange => 2
  | exceedsHostLimit => 3

/-- The check that the line of a diagnostic names. -/
def ofLine? (line : Int32) : Option ArgumentCheck :=
  [negative, exceedsIndexRange, exceedsHostLimit].find? (·.line == line)

/-- What the check found, as said of the value. -/
def text : ArgumentCheck → String
  | negative => "must not be negative"
  | exceedsIndexRange => "exceeds the 32-bit table index range"
  | exceedsHostLimit => "exceeds the configured host limit"

end ArgumentCheck

/-- A fault caught at the boundary, with the diagnostic that came before it. -/
structure TrapReport where
  abort : Option Abort
  message : String
deriving DecidableEq

namespace TrapReport

/-- The report of host code that panicked while an entry point ran. -/
def hostPanic (entry : EntryPoint) (message : String) : TrapReport :=
  ⟨some ⟨AbortCode.hostPanic.number, entry.site, 0, 0⟩, message⟩

/-- The code of the diagnostic, if there is one. -/
def code? (report : TrapReport) : Option Int32 :=
  report.abort.map (·.code)

/-- The message, followed by the diagnostic if there is one. -/
def text (report : TrapReport) : String :=
  match report.abort with
  | some abort => report.message ++ " [" ++ abort.text ++ "]"
  | none => report.message

end TrapReport

/-- Why an entry point, an access to memory or a look-up by name failed. -/
inductive Failure
  | invalidArgument (entry : EntryPoint) (value : Int64) (check : ArgumentCheck)
  | unboundCallback
  | internalTrap (report : TrapReport)
  | memoryOutOfBounds (offset length size : UInt64)
  | unknownExport (name : String)
  | arityMismatch (name : String) (expected got : Nat)
  | typeMismatch (name : String) (expected got : ScalarType)
deriving DecidableEq

namespace Failure

/-- What a caller is told of a failure. -/
def message : Failure → String
  | invalidArgument entry value check =>
    "invalid argument to `" ++ entry.name ++ "`: " ++ toString value.toInt ++ " " ++ check.text
  | unboundCallback => "no callback bound; bind one before calling `invoke_callback`"
  | internalTrap report => "internal trap: " ++ report.text
  | memoryOutOfBounds offset length size =>
    "memory access out of bounds: offset " ++ toString offset.toNat ++ " + " ++
      toString length.toNat ++ " bytes exceeds " ++ toString size.toNat
  | unknownExport name => "unknown export: " ++ name
  | arityMismatch name expected got =>
    "`" ++ name ++ "` expects " ++ toString expected ++ " argument(s), got " ++ toString got
  | typeMismatch name expected got =>
    "`" ++ name ++ "` expects " ++ expected.name ++ ", got " ++ got.name

/-- The record of an entry point that failed. -/
def record (failure : Failure) (entry : EntryPoint) : String :=
  "`" ++ entry.name ++ "` failed: " ++ failure.message

/-- The diagnostic equivalent to a failure, for the failures that have one. -/
def abort? : Failure → Option Abort
  | invalidArgument entry value check =>
    some ⟨AbortCode.invalidArgument.number, entry.site, check.line, value.toInt32⟩
  | internalTrap report => report.abort
  | _ => none

end Failure

end TableKernels
