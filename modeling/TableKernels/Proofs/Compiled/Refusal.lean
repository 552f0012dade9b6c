import TableKernels.Proofs.Compiled.Calls
import TableKernels.Proofs.Wasm.Reading.Fragment

/-!
# What a guard does

A guard may stand in any function, check any local against any bound, and report to any host that
takes four integers. Its bytes are read back as the instructions that were written. When they run,
either nothing at all has changed or the host was told once and the code has trapped; which of the
two is decided by the argument alone, and for the bounds of the kernels as `checkDomain` decides.
-/

namespace TableKernels.Compiled

open Wasm

variable {Host : Type} {program : Program Host} {abort : HostFunction Host} {room : Headroom}
  {code : List Instr} {stack stack' : List Word} {locals : Array Word} {store : Store Host}
  {diagnostic : Abort} {param : UInt32} {entry : EntryPoint} {greatest value : Int64}

/-- Wherever its bytes stand in a body, a fragment is read as the given instructions. -/
def ReadsAs (fragment code : List Instr) : Prop :=
  ∀ after code' rest, decodeCode after = some (code', rest) →
    decodeCode (encodeRun fragment ++ after) = some (code ++ code', rest)

theorem ReadsAs.of_writable (writable : areWritable code = true) : ReadsAs code code :=
  fun _ _ _ read => decodeCode_append writable read

/-- Code behind which all goes on with other operands and nothing else changed. -/
def FallsThrough (program : Program Host) (room : Headroom) (code : List Instr)
    (stack stack' : List Word) (locals : Array Word) (store : Store Host) : Prop :=
  ∃ cost, Passes program room cost code stack locals store stack' locals store

/-- Code that tells the host of a diagnostic once and then traps, whatever follows it. -/
def Refuses (program : Program Host) (abort : HostFunction Host) (room : Headroom)
    (code : List Instr) (diagnostic : Abort) (stack : List Word) (locals : Array Word)
    (store : Store Host) : Prop :=
  ∃ cost, ∀ rest, Ends program room cost (code ++ rest) stack locals store
    (.trap .unreachable (told abort diagnostic store))

theorem FallsThrough.not_refuses
    (falls : FallsThrough program room code stack stack' locals store) :
    ¬ Refuses program abort room code diagnostic stack locals store := by
  rintro ⟨cost', refuses⟩
  obtain ⟨cost, passes⟩ := falls
  have ended := passes.ends (cost + 1 + cost') (by omega)
  have trapped := refuses [] (cost + 1 + cost') (by omega)
  rw [List.append_nil, ended] at trapped
  cases trapped

/-! ## One condition -/

/-- What the code that aborts on a condition does, with the low bits of a value as the column. -/
structure AbortsIf (program : Program Host) (abort : HostFunction Host) (room : Headroom)
    (code site line : Int32) (column : UInt32) (value : Int64) (stack : List Word)
    (locals : Array Word) (store : Store Host) : Prop where
  passes : ∀ condition : UInt32,
    FallsThrough program room (abortIf code site line column) (.i32 condition :: stack) stack
      locals store ↔ condition = 0
  refuses : ∀ condition : UInt32, condition ≠ 0 →
    Refuses program abort room (abortIf code site line column) ⟨code, site, line, value.toInt32⟩
      (.i32 condition :: stack) locals store

theorem abortsIf (reports : Reports program abort) (lent : 4 ≤ room.cells)
    (code site line : Int32) (held : locals[param.toNat]? = some (.i64 value.toUInt64)) :
    AbortsIf program abort room code site line param value stack locals store := by
  have refuses : ∀ condition : UInt32, condition ≠ 0 →
      Refuses program abort room (abortIf code site line param)
        ⟨code, site, line, value.toInt32⟩ (.i32 condition :: stack) locals store := by
    intro condition holds
    refine ⟨8, fun rest => ?_⟩
    rw [← toInt32_toUInt32]
    exact abortIf_told reports holds held lent
  refine ⟨fun condition => ⟨fun falls => ?_, ?_⟩, refuses⟩
  · by_contra holds
    exact falls.not_refuses (refuses condition holds)
  · rintro rfl
    exact ⟨1, abortIf_passes⟩

/-! ## Arguments -/

/-- What the guard of an argument does. -/
structure Guards (program : Program Host) (abort : HostFunction Host) (room : Headroom)
    (param : UInt32) (entry : EntryPoint) (greatest value : Int64) (stack : List Word)
    (locals : Array Word) (store : Store Host) : Prop where
  accepts : FallsThrough program room (argumentGuard param entry greatest) stack stack locals
      store ↔
    0 ≤ value.toInt ∧ value.toInt ≤ greatest.toInt
  /-- The lower bound is checked first, so that it is reported even under a negative maximum. -/
  negative : value.toInt < 0 →
    Refuses program abort room (argumentGuard param entry greatest)
      ⟨1, entry.site, 1, value.toInt32⟩ stack locals store
  excessive : 0 ≤ value.toInt → greatest.toInt < value.toInt →
    Refuses program abort room (argumentGuard param entry greatest)
      ⟨1, entry.site, 2, value.toInt32⟩ stack locals store

theorem argumentGuard_refuses (reports : Reports program abort) (lent : 4 ≤ room.cells)
    (held : locals[param.toNat]? = some (.i64 value.toUInt64)) {check : ArgumentCheck}
    (refused : refusal? greatest value = some check) :
    Refuses program abort room (argumentGuard param entry greatest)
      ⟨1, entry.site, check.line, value.toInt32⟩ stack locals store := by
  refine ⟨15, fun rest => ?_⟩
  rw [← toInt32_toUInt32]
  exact argumentGuard_told reports held lent refused

theorem guards (reports : Reports program abort) (lent : 4 ≤ room.cells)
    (held : locals[param.toNat]? = some (.i64 value.toUInt64)) :
    Guards program abort room param entry greatest value stack locals store := by
  refine ⟨⟨fun falls => ?_, fun inside => ?_⟩, fun below => ?_, fun nonneg above => ?_⟩
  · rw [← refusal?_eq_none_iff]
    by_contra refused
    obtain ⟨check, refused⟩ := Option.ne_none_iff_exists'.mp refused
    exact falls.not_refuses (argumentGuard_refuses reports lent held refused)
  · exact ⟨8, argumentGuard_passes value.toUInt64 held (refusal?_eq_none_iff.mpr inside)⟩
  · have refused : refusal? greatest value = some .negative := by
      rw [refusal?_toInt, if_pos below]
    exact argumentGuard_refuses reports lent held refused
  · have refused : refusal? greatest value = some .exceedsIndexRange := by
      rw [refusal?_toInt, if_neg (Int.not_lt.mpr nonneg), if_pos above]
    exact argumentGuard_refuses reports lent held refused

/-- Under the greatest argument of a domain the guard decides as the check of the domain does. -/
theorem guards_domain (reports : Reports program abort) (lent : 4 ≤ room.cells)
    (held : locals[param.toNat]? = some (.i64 value.toUInt64))
    (bound : entry.domainMax? = some greatest.toInt) :
    (checkDomain entry value = .ok () ↔
      FallsThrough program room (argumentGuard param entry greatest) stack stack locals store) ∧
    ∀ check, checkDomain entry value = .error (.invalidArgument entry value check) →
      Refuses program abort room (argumentGuard param entry greatest)
        ⟨1, entry.site, check.line, value.toInt32⟩ stack locals store := by
  rw [(guards reports lent held).accepts, ← refusal?_eq_none_iff, checkDomain_eq,
    ← refusal?_eq entry greatest bound]
  cases refused : refusal? greatest value with
  | none => exact ⟨iff_of_true rfl rfl, fun check refused => nomatch refused⟩
  | some check =>
    refine ⟨iff_of_false (fun accepted => nomatch accepted) (fun same => nomatch same), ?_⟩
    intro check' same
    cases same
    exact argumentGuard_refuses reports lent held refused

/--
In any program whose host takes diagnostics, any local of 64 bits is guarded as written: the bytes
of a guard are read back as its instructions, and these fall through or report once and trap, as the
value and the bound say. The code that aborts on a condition does so exactly when it is not zero.
-/
theorem argument_guard_means {Host : Type} (program : Program Host) (abort : HostFunction Host)
    (reports : Reports program abort) (room : Headroom) (lent : 4 ≤ room.cells) (index : UInt32)
    (value : Int64) (stack : List Word) (locals : Array Word) (store : Store Host)
    (held : locals[index.toNat]? = some (.i64 value.toUInt64)) :
    (∀ (entry : EntryPoint) (greatest : Int64),
      ReadsAs (argumentGuard index entry greatest)
        [.op (.localGet index), .op (.i64Const 0), .op (.numeric .i64LtS),
          .ifThen [.op (.i32Const 1), .op (.i32Const entry.site.toUInt32), .op (.i32Const 1),
            .op (.localGet index), .op (.numeric .i32WrapI64), .call 0, .unreachable],
          .op (.localGet index), .op (.i64Const greatest.toUInt64), .op (.numeric .i64GtS),
          .ifThen [.op (.i32Const 1), .op (.i32Const entry.site.toUInt32), .op (.i32Const 2),
            .op (.localGet index), .op (.numeric .i32WrapI64), .call 0, .unreachable]] ∧
      Guards program abort room index entry greatest value stack locals store ∧
      (entry.domainMax? = some greatest.toInt →
        (checkDomain entry value = .ok () ↔
          FallsThrough program room (argumentGuard index entry greatest) stack stack locals
            store) ∧
        ∀ check, checkDomain entry value = .error (.invalidArgument entry value check) →
          Refuses program abort room (argumentGuard index entry greatest)
            ⟨1, entry.site, check.line, value.toInt32⟩ stack locals store)) ∧
    ∀ code site line : Int32,
      ReadsAs (abortIf code site line index)
        [.ifThen [.op (.i32Const code.toUInt32), .op (.i32Const site.toUInt32),
          .op (.i32Const line.toUInt32), .op (.localGet index), .op (.numeric .i32WrapI64),
          .call 0, .unreachable]] ∧
      AbortsIf program abort room code site line index value stack locals store := by
  refine ⟨fun entry greatest => ⟨.of_writable rfl, guards reports lent held, fun bound => ?_⟩,
    fun code site line => ⟨.of_writable rfl, abortsIf reports lent code site line held⟩⟩
  exact guards_domain reports lent held bound

/-- A host that keeps all that it is told, the latest in front. -/
def recorder : HostFunction (List (List Word)) where
  type := ⟨[.i32, .i32, .i32, .i32], []⟩
  run := fun words host => (.ok [], words :: host)

/-- A local far below zero under a bound below zero: what is reported is that it is negative. -/
theorem argument_guard_means_negative :
    Reports ⟨#[recorder], #[], []⟩ recorder ∧ 4 ≤ (Headroom.full 1).cells ∧
      (#[.i32 7, .i64 (-2147483649 : Int64).toUInt64] : Array Word)[(1 : UInt32).toNat]? =
        some (.i64 (-2147483649 : Int64).toUInt64) ∧
      ∃ cost, ∀ rest, Ends ⟨#[recorder], #[], []⟩ (Headroom.full 1) cost
        (argumentGuard 1 .sieve (-5) ++ rest) [] #[.i32 7, .i64 (-2147483649 : Int64).toUInt64]
        ⟨.none, #[], #[], #[], ⟨#[], #[]⟩, []⟩
        (.trap .unreachable
          ⟨.none, #[], #[], #[], ⟨#[], #[]⟩, [[.i32 1, .i32 2, .i32 1, .i32 2147483647]]⟩) := by
  have reports : Reports ⟨#[recorder], #[], []⟩ recorder := ⟨rfl, rfl, fun _ _ => rfl⟩
  have lent : 4 ≤ (Headroom.full 1).cells := by decide
  have held : (#[.i32 7, .i64 (-2147483649 : Int64).toUInt64] : Array Word)[(1 : UInt32).toNat]? =
      some (.i64 (-2147483649 : Int64).toUInt64) := rfl
  have means := argument_guard_means _ recorder reports _ lent 1 (-2147483649) [] _
    ⟨.none, #[], #[], #[], ⟨#[], #[]⟩, []⟩ held
  exact ⟨reports, lent, held, (means.1 .sieve (-5)).2.1.negative (by decide)⟩

end TableKernels.Compiled
