import TableKernels.Proofs.Hosted.Start
import TableKernels.Proofs.Session

/-!
# Memory of a hosted module

A call that builds a table writes nothing outside of it, and any other call leaves memory as it was.
So the pages of a hosted memory are, after every sequence of steps of its host, those it began with
or those of the largest table that was built, and the host's region only changes when the host
writes to it.
-/

namespace TableKernels

open Wasm Compiled

variable {α : Type} {config : Config} {frames : Frames} {kernel : HostedKernel}

/-! ## Tables -/

/-- The bytes of the table that a call needs. -/
def tableBytes? : EntryPoint → List Int64 → Option ℕ
  | .fibonacci, n :: _ =>
    if 0 ≤ n.toInt ∧ n.toInt ≤ fibonacciMax then some ((n.toInt.toNat + 2) * 8) else none
  | .sieve, limit :: _ =>
    if 5 ≤ limit.toInt ∧ limit.toInt ≤ sieveMax then some (limit.toInt.toNat + 1) else none
  | _, _ => none

namespace Verdict

/-- The verdict is one on a call that needs the given table, if any. -/
def Needs (table? : Option ℕ) : Verdict α → Prop
  | refused _ | starved _ => True
  | fixed _ => table? = none
  | tabled bytes _ => table? = some bytes

theorem Needs.capped {table? : Option ℕ} {verdict : Verdict α} (needs : verdict.Needs table?)
    (config : Config) (entry : EntryPoint) (argument : Int64) :
    (verdict.capped config entry argument).Needs table? := by
  rw [Verdict.capped]
  split
  · trivial
  · exact needs

theorem needs_ofTable {bytes : ℕ} (maxPages : ℕ) (answer : α) :
    (ofTable maxPages bytes answer).Needs (some bytes) := by
  rw [ofTable]
  split
  · rfl
  · trivial

theorem fibonacci_needs (maxPages : ℕ) (n : Int64) (rest : List Int64) :
    (Verdict.fibonacci maxPages n).Needs (tableBytes? .fibonacci (n :: rest)) := by
  rw [Verdict.fibonacci]
  cases fault : domainFault? .fibonacci n with
  | some check => trivial
  | none =>
    rw [tableBytes?, if_pos ((domainFault?_eq_none_iff rfl).mp fault)]
    exact needs_ofTable _ _

theorem sieve_needs (maxPages : ℕ) (limit : Int64) (rest : List Int64) :
    (Verdict.sieve maxPages limit).Needs (tableBytes? .sieve (limit :: rest)) := by
  rw [Verdict.sieve]
  cases fault : domainFault? .sieve limit with
  | some check => trivial
  | none =>
    obtain ⟨nonneg, le_max⟩ := (domainFault?_eq_none_iff rfl).mp fault
    rw [tableBytes?]
    simp only
    rcases Nat.lt_or_ge limit.toInt.toNat 5 with small | large
    · rw [if_pos small, if_neg (by omega)]
      rfl
    · rw [if_neg (Nat.not_lt.mpr large), if_pos (by omega)]
      exact needs_ofTable _ _

end Verdict

/-- What a call may do to memory, by the table it needs and by whether it succeeds. -/
structure TableCall (table? : Option ℕ) (isOk : Bool) (before after : Memory) : Prop where
  built : ∀ bytes, table? = some bytes → isOk = true →
    Framed bytes before after ∧ pagesForTable bytes ≤ before.maxPages
  untouched : table? = none ∨ isOk = false → after = before

theorem TableCall.of_eq {isOk : Bool} {before after : Memory} (same : after = before) :
    TableCall none isOk before after :=
  ⟨nofun, fun _ => same⟩

/-- Memory after a call that is allowed a table: unchanged, or framed by the table. -/
theorem TableCall.framed {table? : Option ℕ} {isOk : Bool} {before after : Memory}
    (call : TableCall table? isOk before after) :
    after = before ∨ ∃ bytes, table? = some bytes ∧ Framed bytes before after := by
  cases isOk with
  | false => exact .inl (call.untouched (.inr rfl))
  | true =>
    cases table? with
    | none => exact .inl (call.untouched (.inl rfl))
    | some bytes => exact .inr ⟨bytes, rfl, (call.built bytes rfl rfl).1⟩

theorem isOk_erased (result : Except Failure α) : (erased result).isOk = result.isOk := by
  cases result <;> rfl

namespace HostedKernel

theorem Obeys.tableCall {entry : EntryPoint} {argument : Int64} {verdict : Verdict α}
    {call : Except Failure α × HostedKernel} {table? : Option ℕ}
    (obeys : Obeys entry argument verdict kernel call) (needs : verdict.Needs table?) :
    TableCall table? call.1.isOk kernel.memory call.2.memory := by
  have isOk : call.1.isOk = (verdict.result entry argument).isOk := by
    rw [← obeys.result, isOk_erased]
  have memory := obeys.memory
  rw [isOk]
  cases verdict with
  | refused check => exact ⟨nofun, fun _ => memory⟩
  | starved bytes => exact ⟨nofun, fun _ => memory⟩
  | fixed answer =>
    rw [show table? = none from needs]
    exact .of_eq memory
  | tabled bytes answer =>
    rw [show table? = some bytes from needs]
    refine ⟨fun _ same _ => ?_, ?_⟩
    · cases same
      exact memory
    · rintro (absent | failed)
      · cases absent
      · cases failed

/-- What a call does to a kernel. -/
structure CallEffect (config : Config) (frames : Frames) (table? : Option ℕ) (isNumeric : Prop)
    (isOk : Bool) (before after : HostedKernel) : Prop where
  runs : after.Runs config frames
  memory : TableCall table? isOk before.memory after.memory
  kept : isNumeric → Kept before after

/-- A call that obeys a verdict keeps a kernel running. -/
theorem Obeys.runs {entry : EntryPoint} {argument : Int64} {verdict : Verdict α}
    {call : Except Failure α × HostedKernel} (runs : kernel.Runs config frames)
    (obeys : Obeys entry argument verdict kernel call) : call.2.Runs config frames := by
  have leaves := obeys.memory
  cases verdict with
  | refused | starved | fixed =>
    have same : call.2.memory = kernel.memory := leaves
    exact obeys.kept.runs runs (same ▸ runs.declared) (congrArg Memory.maxPages same)
  | tabled bytes answer =>
    exact obeys.kept.runs runs (leaves.1.declared runs.declared leaves.2) leaves.1.maxPages

theorem Obeys.effect {entry : EntryPoint} {argument : Int64} {verdict : Verdict α}
    {call : Except Failure α × HostedKernel} {table? : Option ℕ} (isNumeric : Prop)
    (runs : kernel.Runs config frames) (obeys : Obeys entry argument verdict kernel call)
    (needs : verdict.Needs table?) :
    CallEffect config frames table? isNumeric call.1.isOk kernel call.2 :=
  ⟨obeys.runs runs, obeys.tableCall needs, fun _ => obeys.kept⟩

theorem CallEffect.of_memory {isNumeric : Prop} {isOk : Bool} {after : HostedKernel}
    (runs : after.Runs config frames) (memory : after.memory = kernel.memory)
    (kept : isNumeric → Kept kernel after) :
    CallEffect config frames none isNumeric isOk kernel after :=
  ⟨runs, .of_eq memory, kept⟩

theorem CallEffect.unchanged {table? : Option ℕ} {isNumeric : Prop}
    (runs : kernel.Runs config frames) :
    CallEffect config frames table? isNumeric false kernel kernel :=
  ⟨runs, ⟨nofun, fun _ => rfl⟩, fun _ => ⟨⟨rfl, rfl, rfl⟩, rfl, rfl, rfl⟩⟩

theorem invokeCallback_keeps (runs : kernel.Runs config frames) (small : frames.AreSmall) :
    kernel.invokeCallback.2.Runs config frames ∧
      kernel.invokeCallback.2.memory = kernel.memory := by
  cases bound : kernel.host.callback with
  | none =>
    obtain ⟨_, kept, memory⟩ := invokeCallback_unbound bound
    exact ⟨kept.runs runs (memory ▸ runs.declared) (congrArg Memory.maxPages memory), memory⟩
  | some callback =>
    obtain ⟨_, same, memory, _, _, globals⟩ := invokeCallback_bound runs small bound
    exact ⟨(same.runs runs memory globals).1, memory⟩

theorem isOk_map {β : Type} (result : Except Failure α) (change : α → β) :
    (result.map change).isOk = result.isOk := by
  cases result <;> rfl

/-- Every entry point has the effect that its table allows, whatever arguments it is run on. -/
theorem run_effect (runs : kernel.Runs config frames) (small : frames.AreSmall)
    (entry : EntryPoint) (arguments : List Int64) :
    CallEffect config frames (tableBytes? entry arguments) entry.IsNumeric
      (Kernel.run entry arguments kernel).1.isOk kernel (Kernel.run entry arguments kernel).2 := by
  cases entry with
  | fibonacci =>
    cases arguments with
    | nil => exact .unchanged runs
    | cons n rest =>
      have effect := (compute_obeys .fibonacci runs small n).effect
        (EntryPoint.IsNumeric .fibonacci) runs ((Verdict.fibonacci_needs _ n rest).capped _ _ _)
      rw [← isOk_map _ (some ∘ Scalar.i64)] at effect
      exact effect
  | sieve =>
    cases arguments with
    | nil => exact .unchanged runs
    | cons limit rest =>
      have effect := (compute_obeys .sieve runs small limit).effect
        (EntryPoint.IsNumeric .sieve) runs ((Verdict.sieve_needs _ limit rest).capped _ _ _)
      rw [← isOk_map _ (some ∘ Scalar.i32)] at effect
      exact effect
  | updateMemory =>
    obtain ⟨_, same, memory, _, _, globals⟩ := updateMemory_spec runs small
    cases arguments <;> exact .of_memory (same.runs runs memory globals).1 memory nofun
  | invokeCallback =>
    obtain ⟨after, memory⟩ := invokeCallback_keeps runs small
    cases arguments <;> exact .of_memory after memory nofun

end HostedKernel

/-! ## Operations -/

namespace Operation

/-- The table that an operation needs. -/
def table? (operation : Operation) : Option ℕ :=
  operation.entered?.bind fun (entry, arguments) => tableBytes? entry arguments

/-- The operation computes a number. -/
def IsNumeric (operation : Operation) : Prop :=
  ∃ entry arguments, operation.entered? = some (entry, arguments) ∧ entry.IsNumeric

theorem call_effect {operation : Operation} (call : operation.isCall = true)
    (runs : kernel.Runs config frames) (small : frames.AreSmall) :
    HostedKernel.CallEffect config frames operation.table? operation.IsNumeric
      (operation.run kernel).1.isOk kernel (operation.run kernel).2 := by
  cases entered : operation.entered? with
  | none =>
    obtain ⟨failure, unchanged⟩ := run_of_not_entered call entered
    rw [unchanged kernel]
    exact .unchanged runs
  | some pair =>
    obtain ⟨entry, arguments⟩ := pair
    have effect := HostedKernel.run_effect runs small entry arguments
    have table : operation.table? = tableBytes? entry arguments := by
      rw [table?, entered]
      rfl
    rw [run_of_entered entered, table]
    refine ⟨effect.runs, ?_, fun numeric => effect.kept ?_⟩
    · rw [← HostedKernel.isOk_map _ Answer.scalar] at effect
      exact effect.memory
    · obtain ⟨_, _, same, isNumeric⟩ := numeric
      cases entered.symm.trans same
      exact isNumeric

end Operation

end TableKernels
