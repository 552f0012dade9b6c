import TableKernels.Proofs.Wasm.Soundness

/-!
# Globals that never change

A type says of a global whether it may change. Code that the check lets pass sets only those that
may, wherever in its blocks and whether it is reached or not; so the others hold forever what they
began with.
-/

namespace TableKernels.Wasm

variable {Host : Type} {scope : Scope} {operands after : Operands}

namespace Scope

/-- If a plain instruction sets a global, then it is one that may change. -/
def MaySet (scope : Scope) (op : Op) : Prop :=
  ∀ index, op = .globalSet index →
    ∃ type, scope.globals[index.toNat]? = some type ∧ type.isMutable = true

/-- The globals that may not change hold what they held. -/
def Fixes (scope : Scope) (before after : Store Host) : Prop :=
  ∀ (index : ℕ) (type : GlobalType), scope.globals[index]? = some type → type.isMutable = false →
    after.globals[index]? = before.globals[index]?

theorem Fixes.refl (store : Store Host) : scope.Fixes store store :=
  fun _ _ _ _ => rfl

theorem Fixes.trans {first second third : Store Host} (before : scope.Fixes first second)
    (after : scope.Fixes second third) : scope.Fixes first third :=
  fun index type declared fixed =>
    (after index type declared fixed).trans (before index type declared fixed)

theorem Fixes.of_eq {before after : Store Host} (same : after.globals = before.globals) :
    scope.Fixes before after :=
  fun _ _ _ _ => by rw [same]

/-! ## The check -/

theorem maySet_of_checkOp? {op : Op} (checked : scope.checkOp? operands op = some after) :
    scope.MaySet op := by
  rintro index rfl
  obtain ⟨type, declared, checked⟩ := Option.bind_eq_some_iff.mp checked
  split at checked
  · next mutable => exact ⟨type, declared, mutable⟩
  · cases checked

mutual

/-- An instruction that the check lets pass sets only what may change. -/
theorem maySet_of_checkInstr? {labels : List (List ValType)} {operands after : Operands}
    (instr : Instr) (checked : scope.checkInstr? labels operands instr = some after) :
    ∀ op ∈ instr.plainOps, scope.MaySet op := by
  rw [checkInstr?.eq_def] at checked
  cases instr with
  | op op =>
    intro other mem
    cases List.mem_singleton.mp mem
    exact maySet_of_checkOp? checked
  | blockOf _ body | loopOf _ body =>
    obtain ⟨_, _, checked⟩ := Option.bind_eq_some_iff.mp checked
    obtain ⟨_, passes, _⟩ :=
      checkCode?_of_checkBody (Option.ite_none_right_eq_some.mp checked).1
    exact maySet_of_checkCode? body passes
  | branch _ body other =>
    obtain ⟨_, _, checked⟩ := Option.bind_eq_some_iff.mp checked
    obtain ⟨one, two⟩ := Bool.and_eq_true_iff.mp (Option.ite_none_right_eq_some.mp checked).1
    obtain ⟨_, passes, _⟩ := checkCode?_of_checkBody one
    obtain ⟨_, passes', _⟩ := checkCode?_of_checkBody two
    exact List.forall_mem_append.mpr
      ⟨maySet_of_checkCode? body passes, maySet_of_checkCode? other passes'⟩
  | unreachable | br _ | brIf _ | brTable _ _ | ret | call _ | callIndirect _ _ | returnCall _
  | returnCallIndirect _ _ => exact nofun

theorem maySet_of_checkCode? {labels : List (List ValType)} {operands after : Operands}
    (code : List Instr) (checked : scope.checkCode? labels operands code = some after) :
    ∀ op ∈ plainOps code, scope.MaySet op := by
  cases code with
  | nil => exact nofun
  | cons instr code =>
    rw [checkCode?] at checked
    split at checked
    · next between passes =>
      exact List.forall_mem_append.mpr
        ⟨maySet_of_checkInstr? instr passes, maySet_of_checkCode? code checked⟩
    · cases checked

end

end Scope

/-! ## Runs -/

/-- A plain instruction changes no global but the one that it sets. -/
theorem Store.Changes.fixes {op : Op} {store after : Store Host} (changes : store.Changes op after)
    (may : scope.MaySet op) : scope.Fixes store after := by
  cases changes with
  | none => exact .refl _
  | global index word sets =>
    intro other type declared fixed
    obtain ⟨type', declared', mutable⟩ := may index sets
    have different : index.toNat ≠ other := by
      rintro rfl
      cases declared.symm.trans declared'
      cases fixed.symm.trans mutable
    exact Array.getElem?_setIfInBounds_ne different
  | bytes | grow => exact .of_eq (store.globals_changeMemory _ _)
  | tables => exact .refl _

/-- Whatever a checked program does, globals that may not change stay as they are. -/
theorem Program.IsTyped.maintains_fixes {program : Program Host} (typed : program.IsTyped scope) :
    program.Maintains scope.MaySet scope.Fixes where
  refl := .refl
  trans := .trans
  op _ may _ _ changes := changes.fixes may
  call _ _ _ _ := .of_eq rfl
  routines routine defined := by
    -- The scope of a function has other locals and results, but the same globals.
    obtain ⟨_, passes, _⟩ := Scope.checkCode?_of_checkBody (typed.routines routine defined)
    exact (scope.inside routine).maySet_of_checkCode? routine.code passes

end TableKernels.Wasm
