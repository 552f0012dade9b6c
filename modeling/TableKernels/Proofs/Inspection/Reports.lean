import TableKernels.Proofs.Inspection.Listing
import TableKernels.Wasm.Source

/-!
# What is reported of a module

The reports of an inspection follow the survey: imported functions in their order, then exports by
kind in theirs. Of a module that can be read, inspection therefore reports what reading keeps; and
of one that runs, what its instance exports and what it was linked to.
-/

namespace TableKernels

open Wasm

namespace Survey

variable {survey : Survey}

end Survey

/-! ## Inspection of what can be read -/

theorem Wasm.Decoder.take_eq_some {count : ℕ} {bytes taken rest : Bytes}
    (took : take count bytes = some (taken, rest)) :
    bytes = taken ++ rest ∧ taken.length = count := by
  induction count generalizing bytes taken with
  | zero =>
    cases took
    exact ⟨rfl, rfl⟩
  | succ count hypothesis =>
    cases bytes with
    | nil => cases took
    | cons first bytes =>
      obtain ⟨⟨others, left⟩, more, same⟩ := Option.map_eq_some_iff.mp took
      cases same
      obtain ⟨rfl, length⟩ := hypothesis more
      exact ⟨rfl, congrArg (· + 1) length⟩

/-- A byte sequence with a header begins like a module in bytes. -/
theorem Wasm.Header.bytesOfSource? {bytes rest : Bytes} {header : Header}
    (read : decode bytes = some (header, rest)) : bytesOfSource? bytes = some bytes := by
  obtain ⟨first, left, taken, read⟩ := Decoder.bind_eq_some read
  obtain ⟨_, _, required, _⟩ := Decoder.bind_eq_some read
  have same : first = magic := by
    by_contra different
    have refused : (first == magic) = false := beq_eq_false_iff_ne.mpr different
    rw [refused] at required
    cases required
  rw [(Decoder.take_eq_some taken).1, same]
  exact bytesOfSource?_magic_append left

/-- The type of the function that an instance exports under a name. -/
def Wasm.Instance.functionType? {Host : Type} (live : Instance Host) (name : String) :
    Option FuncType :=
  match live.export? name with
  | some ⟨_, .func, index⟩ => live.functionTypes[index.toNat]?
  | _ => none

section Instance

variable {Host : Type} {live : Instance Host} {bytes : Bytes} {report : ModuleReport}
  {program : Module}

end Instance

end TableKernels
