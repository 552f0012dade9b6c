import TableKernels.Proofs.Compiled.Independence
import TableKernels.Proofs.Table.Contents

/-!
# The flags of both sieves

The reference and the compiled sieve go through the same two tables: the parities of the pairs, and
of these the flags that no square of a flagged number clears. In the compiled sieve every flag is a
byte in scratch space that is 0 or 1, whatever the memory of the instance held before.
-/

namespace TableKernels

open Wasm Compiled

variable {config : Config} {frames : Frames} {live : LinkedModule} {limit : Int64}
  {toggled flags : Array Bool}

/-- Scratch space holds the flags of a table, 1 for a flag that is set and 0 for one that is not. -/
def HoldsFlags (table : Array Bool) (memory : Memory) : Prop :=
  ∀ k < table.size, memory.load8? (heapStart + k) = some (if Table.flag table k then 1 else 0)

theorem HoldsFlags.of_tabled {before memory : Memory} (tabled : Tabled before toggled memory) :
    HoldsFlags toggled memory :=
  fun _ inside => tabled.load inside

namespace LinkedModule

/-- What a call of the compiled `sieve` does to the scratch space of an instance. -/
structure LeavesFlags (live : LinkedModule) (limit : Int64) (toggled flags : Array Bool)
    (answer : Int32) : Prop where
  /-- The routine that is called gets through its flips, and then memory holds the parities. -/
  flips : ∃ routine room cost locals between,
    live.entry? .sieve = some sieveIndex ∧
    live.program.routines[sieveIndex.toNat - live.program.imports.size]? = some routine ∧
    routine.code = flipCode ++ searchCode ∧
    (Headroom.full 1).enter? routine.cells = some room ∧
    Passes live.program room cost flipCode [] (.i64 limit.toUInt64 :: routine.locals).toArray
      live.store [] locals (onMemory live.store between) ∧
    HoldsFlags toggled between
  /-- The call returns the answer, and nothing but memory has changed. -/
  returns : ∃ after,
    LinkedModule.call .sieve [.i64 limit] live =
      (.ok (some (.i32 answer)), { live with store := onMemory live.store after }) ∧
    HoldsFlags flags after

/-- In every state of its instance the compiled sieve leaves the flags of the reference. -/
theorem leavesFlags (valid : config.IsValid) (small : frames.AreSmall)
    (state : IsStateOf config (instanceOf config frames) live) (le : 5 ≤ limit.toInt)
    (le_max : limit.toInt ≤ sieveMax)
    (fits : pagesForTable (limit.toInt.toNat + 1) ≤ config.maxPages.toNat)
    (contents : Table.Contents limit.toInt.toNat toggled flags
      (Int32.ofNat (Table.greatestPrime limit.toInt.toNat))) :
    LeavesFlags live limit toggled flags
      (Int32.ofNat (Table.greatestPrime limit.toInt.toNat)) := by
  have declared := state.declared valid
  have found := entry?_eq _ state.exports state.functionTypes .sieve
  have program : live.program = frames.program := state.program
  have maxPages : live.store.memory.maxPages = config.maxPages.toNat :=
    state.maxPages.trans (maxPages_firstMemory valid)
  have word : limit.toUInt64 = UInt64.ofNat limit.toInt.toNat := toUInt64_of_nonneg (by omega)
  obtain ⟨n, same⟩ : ∃ n, n = limit.toInt.toNat := ⟨_, rfl⟩
  rw [← same] at fits contents word ⊢
  rw [← maxPages] at fits
  have n_le : n ≤ 2147483646 := by
    simp only [sieveMax] at le_max
    omega
  constructor
  · obtain ⟨room, inside, entered, _, enters, _⟩ := small.enters small.sieve 1 (le_refl 1)
    obtain ⟨registers, table, between, toggles, _, _, tabled, passes⟩ :=
      flipCode_passes frames room declared (by omega) n_le enters fits
    obtain rfl : table = toggled := by
      have agree := toggles.symm.trans contents.toggles
      injection agree
    rw [program, word]
    exact ⟨_, room, _, registers.words, between, found, rfl, code_sieve, entered, passes,
      .of_tabled tabled⟩
  · obtain ⟨table, after, finished, _, tabled, answered⟩ :=
      invoke_sieve_of_fits live.store small declared (by omega) n_le fits
    obtain rfl : table = flags := by
      have agree := finished.symm.trans contents.finished
      injection agree
    refine ⟨after, ?_, .of_tabled tabled⟩
    have lowered : [Scalar.i64 limit].map Scalar.word = [.i64 (UInt64.ofNat n)] := by
      rw [← word]
      rfl
    simp only [LinkedModule.call, found, lowered, program, entryIndex, answered]
    rfl

end LinkedModule

/--
Under every limit of the domain from 5 on the two tables of the sieve are told by the pairs and by
themselves. The reference answers from them within every budget for them, and the compiled sieve has
their bytes in scratch space and the same answer, in every state of an instance with such a limit.
-/
theorem sieve_table_contents (limit : Int64) (le : 5 ≤ limit.toInt)
    (le_max : limit.toInt ≤ sieveMax) :
    (∀ k, (Forms.pairs k).Finite) ∧
    ∃ toggled flags answer, Table.Contents limit.toInt.toNat toggled flags answer ∧
      (∀ budget : TableBudget, pagesForTable (limit.toInt.toNat + 1) ≤ budget.maxPages.toNat →
        budget.table .sieve (limit.toInt.toNat + 1) 1 false =
            .done (Array.replicate (limit.toInt.toNat + 1) false) ∧
          Table.sieve budget limit = .done answer) ∧
      ∀ config : Config, config.validate = .ok () →
        pagesForTable (limit.toInt.toNat + 1) ≤ config.maxPages.toNat →
        ∃ bytes fresh, compile config = .ok bytes ∧ LinkedModule.ofModule? bytes = some fresh ∧
          LinkedModule.IsStateOf config fresh fresh ∧
          ∀ live, LinkedModule.IsStateOf config fresh live →
            live.LeavesFlags limit toggled flags answer := by
  have small : limit.toInt.toNat < 0x80000000 := by
    simp only [sieveMax] at le_max
    omega
  obtain ⟨toggled, flags, contents⟩ := Table.exists_contents (by omega) small
  refine ⟨Forms.finite_pairs, toggled, flags, _, contents, ?_, ?_⟩
  · intro budget fits
    refine ⟨?_, Table.sieve_eq_done le le_max fits⟩
    exact TableBudget.table_eq_done budget _ 1 .sieve false
      (EntryPoint.asksFor_sieve le le_max).small (by rwa [Nat.mul_one])
  · intro config valid fits
    have isValid := Config.validate_eq_ok.mp valid
    obtain ⟨bytes, frames, few, compiled, linked, fresh⟩ := LinkedModule.exists_fresh isValid
    refine ⟨bytes, instanceOf config frames, compiled, linked, fresh, ?_⟩
    intro live state
    exact LinkedModule.leavesFlags isValid few state le le_max fits contents

/-- The one pair of 25 flags it, and the flag of 5 clears it again. -/
theorem sieve_table_contents_twenty_five :
    5 ≤ (25 : Int64).toInt ∧ (25 : Int64).toInt ≤ sieveMax ∧
    ∃ toggled flags, Table.sieve ⟨2⟩ 25 = .done 23 ∧
      Table.flag toggled 25 = true ∧ Table.flag flags 5 = true ∧ Table.flag flags 25 = false ∧
      ∃ bytes fresh, compile .default = .ok bytes ∧ LinkedModule.ofModule? bytes = some fresh ∧
        fresh.LeavesFlags 25 toggled flags 23 := by
  have le : 5 ≤ (25 : Int64).toInt := by decide
  have le_max : (25 : Int64).toInt ≤ sieveMax := by decide
  obtain ⟨_, toggled, flags, answer, contents, reference, compiled⟩ :=
    sieve_table_contents 25 le le_max
  have odd : ∀ k ∈ [5, 23, 25], Odd (Forms.pairs k).ncard := by
    simp only [Forms.ncard_pairs]
    decide +kernel
  have none : (Forms.pairs 24).ncard = 0 := by
    rw [Forms.ncard_pairs]
    decide +kernel
  -- Below 25 there is no square of a number from 5 on to clear a flag.
  have below : ∀ k ∈ [5, 23], Table.flag flags k = true := by
    intro k member
    obtain ⟨pos, lt⟩ : 0 < k ∧ k < 25 := by
      simp only [List.mem_cons, List.not_mem_nil, or_false] at member
      omega
    refine (contents.sifted k lt.le).mpr ⟨odd k (by grind), ?_⟩
    rintro ⟨r, five_le, _, dvd, _⟩
    have square_le := Nat.le_of_dvd pos dvd
    nlinarith
  have five := below 5 (by decide)
  have cleared : Table.flag flags 25 = false := by
    rw [Bool.eq_false_iff, ne_eq, contents.sifted 25 (by decide)]
    exact fun sifted => sifted.2 ⟨5, le_rfl, by decide, by decide, five⟩
  have unflagged : Table.flag flags 24 = false := by
    rw [Bool.eq_false_iff, ne_eq, contents.sifted 24 (by decide)]
    exact fun sifted => by simpa [none] using sifted.1
  obtain ⟨found, found_le, same, flagged, above⟩ := contents.greatest
  have last : found = 23 := by
    change found ≤ 25 at found_le
    have ge : 23 ≤ found := by
      by_contra lt
      cases (below 23 (by decide)).symm.trans (above 23 (by omega) (by decide))
    have not_even : found ≠ 24 := by
      rintro rfl
      cases flagged.symm.trans unflagged
    have not_square : found ≠ 25 := by
      rintro rfl
      cases flagged.symm.trans cleared
    omega
  obtain rfl : answer = 23 := Int32.toInt_inj.mp (by rw [same, last]; rfl)
  obtain ⟨bytes, fresh, encoded, linked, state, leaves⟩ :=
    compiled .default (by decide) (by decide)
  exact ⟨le, le_max, toggled, flags, (reference ⟨2⟩ (by decide)).2,
    (contents.parity 25 (by decide)).mpr (odd 25 (by decide)), five, cleared,
    bytes, fresh, encoded, linked, leaves fresh state⟩

end TableKernels
