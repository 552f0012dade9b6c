import TableKernels.Proofs.Compiled.Report
import TableKernels.Proofs.Hosted.Moves
import TableKernels.Proofs.Hosted.Start
import TableKernels.Proofs.Inspection.Reports
import TableKernels.Proofs.Wasm.FixedGlobals

/-!
# What inspection tells of a hosted module

A host looks at a module once before it links it, and keeps the report. Inspection and instantiation
go through the bytes on their own, but agree on what an index means: whatever module is hosted, the
report names the functions and globals that the instance exports, with the types that it gives them,
and the functions that it was linked to. As the code of an instance never changes, this stays so.
-/

namespace TableKernels

open Wasm Compiled

namespace HostedKernel

variable {kernel after : HostedKernel} {bytes : Bytes} {config : Config} {program : Module}

/-! ## Globals that are reported as constant -/

/-- The host sets no global, and code only those that may change. -/
theorem Move.fixes (move : Move kernel after) (describes : program.Describes kernel.live) :
    (program.outerScope kernel.live.functionTypes).Fixes kernel.live.store after.live.store := by
  cases move with
  | host | taken => exact .refl _
  | bytes change => exact .of_eq (kernel.live.store.globals_changeMemory _ _)
  | call entry words store typed leaves =>
    have fixes := Program.invoke_maintains describes.code.maintains_fixes
      (kernel.surface.function entry) words kernel.live.store
    rcases leaves with ⟨_, ends⟩ | ⟨_, ends⟩
    all_goals
      rw [ends] at fixes
      exact fixes

theorem Moves.fixes (moves : Moves kernel after) (isOf : kernel.surface.IsOf kernel.live)
    (describes : program.Describes kernel.live) :
    (program.outerScope kernel.live.functionTypes).Fixes kernel.live.store after.live.store := by
  induction moves with
  | refl => exact .refl _
  | tail before move reached =>
    exact reached.trans (move.fixes (Moves.describes before isOf describes).2)

/-! ## Reports -/

end HostedKernel

end TableKernels
