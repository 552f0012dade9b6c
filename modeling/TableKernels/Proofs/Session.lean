import TableKernels.Hosted.Stream
import TableKernels.Proofs.Verdict
import TableKernels.Registry

/-!
# Sessions

Both the reference registry and a hosted module are used through the same operations: the entry
points, called directly or by name, the globals, the slot for a callback and host writes to memory.
A `Session` has all of them, `Operation.run` performs one, and `trace` lists what a caller sees of
a sequence of them.
-/

namespace TableKernels

/-- What the host of a kernel does with it, beside calling its entry points. -/
class Session (State : Type) extends Kernel State where
  bind : Callback → State → State
  unbind : State → Option Callback × State
  write : UInt64 → Bytes → State → Except Failure Unit × State
  isBound : State → Bool
  memory : State → ByteArray

instance : Session Registry where
  bind := fun callback registry => registry.bind callback
  unbind := Registry.unbind
  write := Registry.write
  isBound := Registry.isBound
  memory := fun registry => registry.memory.bytes

instance : Session HostedKernel where
  bind := fun callback kernel => kernel.bind callback
  unbind := HostedKernel.unbind
  write := HostedKernel.write
  isBound := HostedKernel.isBound
  memory := HostedKernel.memoryBytes

/-- A callback that always panics. -/
def booming : Callback := .new fun _ _ => .panic (.text "boom")

/-- An operation on a kernel. -/
inductive Operation
  | fibonacci (n : Int64)
  | sieve (limit : Int64)
  | updateMemory
  | invokeCallback
  /-- Calls an entry point by name. -/
  | call (name : String) (arguments : List Scalar)
  /-- Looks a global up by name. -/
  | global (name : String)
  | bind (callback : Callback)
  | unbind
  /-- Replaces bytes of memory from an offset on. -/
  | write (offset : UInt64) (data : Bytes)

/-- What an operation gives back. -/
inductive Answer
  | scalar (value : Option Scalar)
  /-- The callback that was removed. -/
  | removed (callback : Option Callback)

namespace Operation

variable {State : Type} [Session State]

/-- Performs an operation. -/
def run : Operation → State → Except Failure Answer × State
  | .fibonacci n, state => (Kernel.run .fibonacci [n] state).map (·.map .scalar) id
  | .sieve limit, state => (Kernel.run .sieve [limit] state).map (·.map .scalar) id
  | .updateMemory, state => (Kernel.run .updateMemory [] state).map (·.map .scalar) id
  | .invokeCallback, state => (Kernel.run .invokeCallback [] state).map (·.map .scalar) id
  | .call name arguments, state => (Kernel.call name arguments state).map (·.map .scalar) id
  | .global name, state => ((Kernel.global state name).map .scalar, state)
  | .bind callback, state => (.ok (.scalar none), Session.bind callback state)
  | .unbind, state => (.ok (.removed (Session.unbind state).1), (Session.unbind state).2)
  | .write offset data, state =>
    (Session.write offset data state).map (·.map fun _ => .scalar none) id

/-- The entry point that an operation enters, with its arguments. -/
def entered? : Operation → Option (EntryPoint × List Int64)
  | .fibonacci n => some (.fibonacci, [n])
  | .sieve limit => some (.sieve, [limit])
  | .updateMemory => some (.updateMemory, [])
  | .invokeCallback => some (.invokeCallback, [])
  | .call name arguments => (Kernel.resolve name arguments).toOption
  | .global _ | .bind _ | .unbind | .write _ _ => none

/-- Whether an operation calls an entry point, or tries to. -/
def isCall : Operation → Bool
  | .fibonacci _ | .sieve _ | .updateMemory | .invokeCallback | .call _ _ => true
  | .global _ | .bind _ | .unbind | .write _ _ => false

theorem run_of_entered {operation : Operation} {entry : EntryPoint} {arguments : List Int64}
    (entered : operation.entered? = some (entry, arguments)) (state : State) :
    operation.run state = (Kernel.run entry arguments state).map (·.map .scalar) id := by
  cases operation with
  | call name scalars =>
    simp only [entered?, Except.toOption] at entered
    cases resolved : Kernel.resolve name scalars with
    | error failure => simp [resolved] at entered
    | ok pair =>
      simp only [resolved, Option.some.injEq] at entered
      simp only [run, Kernel.call, resolved, entered]
  | global | bind | unbind | write => cases entered
  | fibonacci | sieve | updateMemory | invokeCallback =>
    cases entered
    rfl

/-- A call that does not enter fails and changes nothing. -/
theorem run_of_not_entered {operation : Operation} (call : operation.isCall = true)
    (outside : operation.entered? = none) :
    ∃ failure, ∀ {State : Type} [Session State] (state : State),
      operation.run state = (.error failure, state) := by
  cases operation with
  | call name scalars =>
    simp only [entered?, Except.toOption] at outside
    cases resolved : Kernel.resolve name scalars with
    | ok pair => simp [resolved] at outside
    | error failure =>
      refine ⟨failure, fun state => ?_⟩
      simp only [run, Kernel.call, resolved]
      rfl
  | global | bind | unbind | write => cases call
  | fibonacci | sieve | updateMemory | invokeCallback => cases outside

end Operation

/-- What can be seen of a kernel: its globals, whether a callback is bound and the host's bytes. -/
structure Sight where
  constant : Binary64
  counter : Int64
  snapshot : Option Int64
  isBound : Bool
  hostRegion : ByteArray

section Trace

variable {State : Type} [Session State]

/-- What can be seen of a state. -/
def sight (state : State) : Sight :=
  ⟨Kernel.constant state, Kernel.counter state, Kernel.snapshot state, Session.isBound state,
    (Session.memory state).extract 0 heapStart⟩

/-- What each operation of a sequence gives back, and what can be seen after it. -/
def trace : List Operation → State → List (Except Failure Answer × Sight)
  | [], _ => []
  | operation :: operations, state =>
    let (answer, after) := operation.run state
    (erased answer, sight after) :: trace operations after

theorem trace_cons (operation : Operation) (operations : List Operation) (state : State) :
    trace (operation :: operations) state =
      (erased (operation.run state).1, sight (operation.run state).2) ::
        trace operations (operation.run state).2 :=
  rfl

end Trace

end TableKernels
