import TableKernels.Failure

/-!
# Entry points by name

Every implementation of the kernels offers the same four entry points and three globals. `Kernel`
is that surface, and `Kernel.call` and `Kernel.global` reach it by name: an unknown name is refused
first, then a wrong count of arguments, then a float argument, and a refused call changes nothing.
-/

namespace TableKernels

/-- The surface shared by the implementations: entry points that change a state, and its globals. -/
class Kernel (State : Type) where
  fibonacci : Int64 → State → Except Failure Int64 × State
  sieve : Int64 → State → Except Failure Int32 × State
  updateMemory : State → Except Failure Unit × State
  invokeCallback : State → Except Failure Unit × State
  constant : State → Binary64
  counter : State → Int64
  snapshot : State → Option Int64

namespace Kernel

variable {State : Type} [Kernel State]

/-- The value of an exported global; the snapshot has none before it is taken. -/
def global (state : State) (name : String) : Except Failure (Option Scalar) :=
  if name = constantName then .ok (some (.f64 (constant state)))
  else if name = counterName then .ok (some (.i64 (counter state)))
  else if name = snapshotName then .ok ((snapshot state).map .i64)
  else .error (.unknownExport name)

/-- The arguments as 64-bit integers, or the first that is a float. -/
def integers (name : String) : List ScalarType → List Scalar → Except Failure (List Int64)
  | expected :: params, argument :: arguments => do
    match argument.toInt64? with
    | some value => pure (value :: (← integers name params arguments))
    | none => throw (.typeMismatch name expected argument.type)
  | _, _ => pure []

/-- The entry point with a name and its arguments as integers, unless name or shape is wrong. -/
def resolve (name : String) (arguments : List Scalar) :
    Except Failure (EntryPoint × List Int64) :=
  match EntryPoint.ofName? name with
  | none => .error (.unknownExport name)
  | some entry =>
    if arguments.length ≠ entry.params.length then
      .error (.arityMismatch name entry.params.length arguments.length)
    else (integers name entry.params arguments).map (entry, ·)

/-- Runs an entry point on arguments of the right shape. -/
def run (entry : EntryPoint) (arguments : List Int64) (state : State) :
    Except Failure (Option Scalar) × State :=
  match entry, arguments with
  | .fibonacci, n :: _ =>
    let (result, after) := fibonacci n state
    (result.map (some ∘ Scalar.i64), after)
  | .sieve, limit :: _ =>
    let (result, after) := sieve limit state
    (result.map (some ∘ Scalar.i32), after)
  | .updateMemory, _ =>
    let (result, after) := updateMemory state
    (result.map fun _ => none, after)
  | .invokeCallback, _ =>
    let (result, after) := invokeCallback state
    (result.map fun _ => none, after)
  | entry, [] => (.error (.arityMismatch entry.name entry.params.length 0), state)

/-- Calls an entry point by name; a refused call leaves the state as it was. -/
def call (name : String) (arguments : List Scalar) (state : State) :
    Except Failure (Option Scalar) × State :=
  match resolve name arguments with
  | .error failure => (.error failure, state)
  | .ok (entry, integers) => run entry integers state

end Kernel

end TableKernels
