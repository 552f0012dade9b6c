import TableKernels.Proofs.Hosted.Start
import TableKernels.Proofs.Session

/-!
# Calls and globals by name

What a call by name comes to is told by the name and the arguments alone. `Refused` lists why no
entry point is entered, and which reason wins; `Enters` lists what is entered otherwise, as the
method itself on the number that the argument stands for. Every call is one or the other, whatever
implements the entry points, and a refused call leaves the whole state as it was.
-/

namespace TableKernels

/-! ## Names and numbers -/

theorem EntryPoint.ofName?_eq_some_iff {name : String} {entry : EntryPoint} :
    ofName? name = some entry ↔ entry.name = name := by
  constructor
  · intro found
    rw [ofName?] at found
    simpa using List.find?_some found
  · rintro rfl
    cases entry <;> decide

theorem EntryPoint.ofName?_eq_none_iff {name : String} :
    ofName? name = none ↔ ∀ entry : EntryPoint, entry.name ≠ name := by
  constructor
  · intro absent entry named
    rw [ofName?_eq_some_iff.mpr named] at absent
    cases absent
  · intro absent
    cases found : ofName? name with
    | none => rfl
    | some entry => exact absurd (ofName?_eq_some_iff.mp found) (absent entry)

/-- The number that an argument stands for; a float stands for none. -/
def Scalar.number? : Scalar → Option ℤ
  | i32 value => some value.toInt
  | i64 value => some value.toInt
  | f64 _ => none

theorem Scalar.toInt64?_eq_some_iff {argument : Scalar} {value : Int64} :
    argument.toInt64? = some value ↔ argument.number? = some value.toInt := by
  cases argument with
  | i32 small =>
    simp only [toInt64?, number?, Option.some.injEq]
    constructor
    · rintro rfl
      exact small.toInt_toInt64.symm
    · intro same
      exact Int64.toInt_inj.mp (small.toInt_toInt64.trans same)
  | i64 wide => simp only [toInt64?, number?, Option.some.injEq, Int64.toInt_inj]
  | f64 _ => simp only [toInt64?, number?, reduceCtorEq]

theorem Scalar.toInt64?_eq_none_iff {argument : Scalar} :
    argument.toInt64? = none ↔ argument.type = .f64 := by
  cases argument <;> simp [toInt64?, type]

namespace Kernel

variable {State : Type} [Kernel State] {name : String} {arguments : List Scalar}

/-! ## What a call comes to -/

/-- Why no entry point is entered: no such name, else a wrong count, else a float. -/
inductive Refused (name : String) (arguments : List Scalar) : Failure → Prop
  | unknown (absent : ∀ entry : EntryPoint, entry.name ≠ name) :
    Refused name arguments (.unknownExport name)
  | arity (entry : EntryPoint) (named : entry.name = name)
    (count : arguments.length ≠ entry.params.length) :
    Refused name arguments (.arityMismatch name entry.params.length arguments.length)
  | type (entry : EntryPoint) (named : entry.name = name)
    (count : arguments.length = entry.params.length) {argument : Scalar}
    (given : argument ∈ arguments) (float : argument.type = .f64) :
    Refused name arguments (.typeMismatch name .i64 .f64)

variable (State) in
/-- What is entered: the method that a name stands for, on the number of the argument. -/
inductive Enters :
    String → List Scalar → (State → Except Failure (Option Scalar) × State) → Prop
  | fibonacci {argument : Scalar} {n : Int64} (number : argument.number? = some n.toInt) :
    Enters "fibonacci" [argument] fun state =>
      ((fibonacci n state).1.map fun value => some (.i64 value), (fibonacci n state).2)
  | sieve {argument : Scalar} {limit : Int64} (number : argument.number? = some limit.toInt) :
    Enters "sieve" [argument] fun state =>
      ((sieve limit state).1.map fun value => some (.i32 value), (sieve limit state).2)
  | updateMemory : Enters "update_memory" [] fun state =>
      ((updateMemory state).1.map fun _ => none, (updateMemory state).2)
  | invokeCallback : Enters "invoke_callback" [] fun state =>
      ((invokeCallback state).1.map fun _ => none, (invokeCallback state).2)

/-! ## Refused calls -/

theorem call_of_refused {failure : Failure} (refused : Refused name arguments failure)
    (state : State) : call name arguments state = (.error failure, state) := by
  have stays (resolved : resolve name arguments = .error failure) :
      call name arguments state = (.error failure, state) := by rw [call, resolved]
  cases refused with
  | unknown absent => exact stays (by rw [resolve, EntryPoint.ofName?_eq_none_iff.mpr absent])
  | arity entry named count =>
    refine stays ?_
    rw [resolve, EntryPoint.ofName?_eq_some_iff.mpr named]
    exact if_pos count
  | type entry named count given float =>
    refine stays ?_
    rw [resolve, EntryPoint.ofName?_eq_some_iff.mpr named]
    simp only [count, ne_eq, not_true_eq_false, if_false]
    have none := Scalar.toInt64?_eq_none_iff.mpr float
    cases entry with
    | fibonacci | sieve =>
      obtain ⟨only, rfl⟩ := List.length_eq_one_iff.mp count
      cases List.mem_singleton.mp given
      simp only [EntryPoint.params, integers, none, float]
      rfl
    | updateMemory | invokeCallback =>
      rw [List.length_eq_zero_iff.mp count] at given
      cases given

/-! ## Calls that enter -/

theorem resolve_number (entry : EntryPoint) (takes : entry.params = [.i64]) {argument : Scalar}
    {value : Int64} (number : argument.number? = some value.toInt) :
    resolve entry.name [argument] = .ok (entry, [value]) := by
  have widened := Scalar.toInt64?_eq_some_iff.mpr number
  rw [resolve, EntryPoint.ofName?_eq_some_iff.mpr rfl]
  simp only [takes, integers, widened]
  rfl

theorem resolve_nothing (entry : EntryPoint) (takes : entry.params = []) :
    resolve entry.name [] = .ok (entry, []) := by
  rw [resolve, EntryPoint.ofName?_eq_some_iff.mpr rfl]
  simp only [takes]
  rfl

theorem call_of_enters {direct : State → Except Failure (Option Scalar) × State}
    (enters : Enters State name arguments direct) (state : State) :
    call name arguments state = direct state := by
  have runs {entry : EntryPoint} {values : List Int64}
      (resolved : resolve name arguments = .ok (entry, values)) :
      call name arguments state = run entry values state := by rw [call, resolved]
  cases enters with
  | fibonacci number => exact runs (resolve_number .fibonacci rfl number)
  | sieve number => exact runs (resolve_number .sieve rfl number)
  | updateMemory => exact runs (resolve_nothing .updateMemory rfl)
  | invokeCallback => exact runs (resolve_nothing .invokeCallback rfl)

variable (State name arguments) in
/-- Every call is refused or entered. -/
theorem refused_or_enters : (∃ failure, Refused name arguments failure) ∨
    ∃ direct, Enters State name arguments direct := by
  by_cases known : ∃ entry : EntryPoint, entry.name = name
  case neg =>
    exact .inl ⟨_, .unknown fun entry named => known ⟨entry, named⟩⟩
  case pos =>
    obtain ⟨entry, rfl⟩ := known
    by_cases count : arguments.length = entry.params.length
    case neg => exact .inl ⟨_, .arity entry rfl count⟩
    case pos =>
      have numbered (argument : Scalar) : argument.type = .f64 ∨
          ∃ value : Int64, argument.number? = some value.toInt := by
        cases widened : argument.toInt64? with
        | none => exact .inl (Scalar.toInt64?_eq_none_iff.mp widened)
        | some value => exact .inr ⟨value, Scalar.toInt64?_eq_some_iff.mp widened⟩
      cases entry with
      | fibonacci =>
        obtain ⟨argument, rfl⟩ := List.length_eq_one_iff.mp count
        rcases numbered argument with float | ⟨value, number⟩
        · exact .inl ⟨_, .type _ rfl count (List.mem_singleton_self argument) float⟩
        · exact .inr ⟨_, .fibonacci number⟩
      | sieve =>
        obtain ⟨argument, rfl⟩ := List.length_eq_one_iff.mp count
        rcases numbered argument with float | ⟨value, number⟩
        · exact .inl ⟨_, .type _ rfl count (List.mem_singleton_self argument) float⟩
        · exact .inr ⟨_, .sieve number⟩
      | updateMemory =>
        cases List.length_eq_zero_iff.mp count
        exact .inr ⟨_, .updateMemory⟩
      | invokeCallback =>
        cases List.length_eq_zero_iff.mp count
        exact .inr ⟨_, .invokeCallback⟩

theorem type_of_map {α : Type} {result : Except Failure α} {wrap : α → Option Scalar}
    {value : Option Scalar} {type : Option ScalarType} (given : result.map wrap = .ok value)
    (typed : ∀ value, (wrap value).map Scalar.type = type) : value.map Scalar.type = type := by
  cases result with
  | error failure => cases given
  | ok found =>
    cases given
    exact typed found

theorem type_of_call {entry : EntryPoint} (named : entry.name = name) {state : State}
    {value : Option Scalar} (given : (call name arguments state).1 = .ok value) :
    value.map Scalar.type = entry.result := by
  rcases refused_or_enters State name arguments with ⟨failure, refused⟩ | ⟨direct, enters⟩
  · rw [call_of_refused refused] at given
    cases given
  · rw [call_of_enters enters] at given
    have same (other : EntryPoint) (named' : other.name = name) : entry = other :=
      Option.some.inj ((EntryPoint.ofName?_eq_some_iff.mpr named).symm.trans
        (EntryPoint.ofName?_eq_some_iff.mpr named'))
    cases enters with
    | fibonacci =>
      rw [same .fibonacci rfl]
      exact type_of_map given fun _ => rfl
    | sieve =>
      rw [same .sieve rfl]
      exact type_of_map given fun _ => rfl
    | updateMemory =>
      rw [same .updateMemory rfl]
      exact type_of_map given fun _ => rfl
    | invokeCallback =>
      rw [same .invokeCallback rfl]
      exact type_of_map given fun _ => rfl

/-! ## Globals -/

theorem global_of_other (state : State)
    (other : name ∉ ["global_const", "from_callback", "memory_value"]) :
    global state name = .error (.unknownExport name) := by
  simp only [List.mem_cons, List.not_mem_nil, or_false, not_or] at other
  rw [global, constantName, counterName, snapshotName, if_neg other.1, if_neg other.2.1,
    if_neg other.2.2]

end Kernel

open Kernel in
/--
Whatever implements the entry points and whatever state it is in, a call by name is refused for the
first reason that holds, and then the whole state stays as it was; or it gives back, with the type
that the entry point declares, what the method gives back on the number of the argument, and leaves
the state that the method leaves. The three globals are found by name, and nothing else is.
-/
theorem call_acts_directly {State : Type} [Kernel State] (state : State) (name : String)
    (arguments : List Scalar) :
    ((∃ failure, Refused name arguments failure) ∨ ∃ direct, Enters State name arguments direct) ∧
      (∀ failure, Refused name arguments failure →
        call name arguments state = (.error failure, state)) ∧
      (∀ direct, Enters State name arguments direct →
        call name arguments state = direct state) ∧
      (∀ entry : EntryPoint, entry.name = name → ∀ value,
        (call name arguments state).1 = .ok value → value.map Scalar.type = entry.result) ∧
      global state "global_const" = .ok (some (.f64 (constant state))) ∧
      global state "from_callback" = .ok (some (.i64 (counter state))) ∧
      global state "memory_value" = .ok ((snapshot state).map .i64) ∧
      (name ∉ ["global_const", "from_callback", "memory_value"] →
        global state name = .error (.unknownExport name)) ∧
      ∀ row ∈ exportTable, row.kind ≠ .global →
        global state row.name = .error (.unknownExport row.name) := by
  refine ⟨refused_or_enters State name arguments,
    fun failure refused => call_of_refused refused state,
    fun direct enters => call_of_enters enters state,
    fun entry named value given => type_of_call named given, rfl, rfl, rfl,
    global_of_other state, fun row mem kind => global_of_other state ?_⟩
  revert row
  decide

/--
A float is refused without a trace by the default module under a host, whatever was reported last;
and a registry takes a negative number of 32 bits for the same number of 64 bits.
-/
theorem call_acts_directly_default : ∃ kernel,
    HostedKernel.ofModule (Compiled.kernelModule .default).encode .default = .ok kernel ∧
      Kernel.call "sieve" [.f64 ⟨0⟩] kernel = (.error (.typeMismatch "sieve" .i64 .f64), kernel) ∧
      Kernel.global kernel "sieve" = .error (.unknownExport "sieve") ∧
      Kernel.call "fibonacci" [.i32 (-1)] Registry.new =
        ((Registry.new.fibonacci (-1)).1.map fun value => some (.i64 value),
          (Registry.new.fibonacci (-1)).2) := by
  obtain ⟨kernel, hosted⟩ := HostedKernel.exists_default
  have acts := call_acts_directly kernel "sieve" [.f64 ⟨0⟩]
  refine ⟨kernel, hosted, ?_, ?_, ?_⟩
  · exact acts.2.1 _ (.type .sieve rfl rfl (List.mem_singleton_self _) rfl)
  · exact acts.2.2.2.2.2.2.2.1 (by decide)
  · exact (call_acts_directly Registry.new "fibonacci" [.i32 (-1)]).2.2.1 _ (.fibonacci rfl)

end TableKernels
