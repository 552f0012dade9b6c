import TableKernels.Proofs.Table.Answer

/-!
# What the table of the sieve holds

After the flips a flag tells the parity of the pairs that stand for its number. After the squares
have been cleared a flag is set when that parity is odd and the square of no number from 5 on that
is flagged itself divides its number. This says of every flag what the flags of smaller numbers make
of it and does not mention the limit, so a smaller limit has the same flags, and fewer of them.
-/

namespace TableKernels

namespace Forms

/-- All pairs of positive numbers at which the form of the residue of `k` takes the value `k`. -/
def pairs (k : ℕ) : Set (ℕ × ℕ) :=
  {pair | 0 < pair.1 ∧ 0 < pair.2 ∧ Represents pair.1 pair.2 k}

theorem coe_representations (k : ℕ) : (representations k : Set (ℕ × ℕ)) = pairs k := by
  ext ⟨x, y⟩
  exact mem_representations

theorem finite_pairs (k : ℕ) : (pairs k).Finite := by
  rw [← coe_representations]
  exact (representations k).finite_toSet

theorem ncard_pairs (k : ℕ) : (pairs k).ncard = (representations k).card := by
  rw [← coe_representations, Set.ncard_coe_finset]

end Forms

namespace Table

open Forms

variable {limit smaller k : ℕ} {flags fewer : Array Bool}

/-- What is left flagged under a limit, told by the flags themselves. -/
def SelfSifted (limit : ℕ) (flags : Array Bool) (k : ℕ) : Prop :=
  Odd (pairs k).ncard ∧ ¬ ∃ r, 5 ≤ r ∧ r ≤ limit ∧ r ^ 2 ∣ k ∧ flag flags r = true

/-- When the primes from 5 on are flagged, they are what the flags leave. -/
theorem selfSifted_iff_prime
    (primes : ∀ r ≤ limit, flag flags r = true ↔ 5 ≤ r ∧ r.Prime) (k_le : k ≤ limit) :
    SelfSifted limit flags k ↔ 5 ≤ k ∧ k.Prime := by
  have k_lt : k < (limit + 1) * (limit + 1) := by nlinarith
  rw [← sifted_iff_prime k_lt, SelfSifted, Sifted, ncard_pairs, Nat.odd_iff]
  refine and_congr_right fun odd => ?_
  constructor
  · intro none p prime le lt dvd
    apply none
    exact ⟨p, le, by omega, by rwa [sq], (primes p (by omega)).mpr ⟨le, prime⟩⟩
  · rintro sifted ⟨r, le, r_le, dvd, flagged⟩
    have prime := ((primes r r_le).mp flagged).2
    rw [sq] at dvd
    exact sifted r prime le (by omega) dvd

theorem isPrefix_of_flags (size : fewer.size = smaller + 1) (le : fewer.size ≤ flags.size)
    (same : ∀ k ≤ smaller, flag fewer k = true ↔ flag flags k = true) :
    fewer.toList <+: flags.toList := by
  rw [List.prefix_iff_getElem]
  refine ⟨by simpa using le, ?_⟩
  intro k k_lt
  have inside : k < fewer.size := by simpa using k_lt
  have agree := same k (by omega)
  rw [flag_eq inside, flag_eq (inside.trans_le le), ← Bool.eq_iff_iff] at agree
  simpa using agree

/--
The tables that the sieve makes under a limit: `toggled` after the flips, `flags` after the squares
have been cleared, and the answer that is found in it.
-/
structure Contents (limit : ℕ) (toggled flags : Array Bool) (answer : Int32) : Prop where
  toggles : toggleRows limit 1 (Array.replicate (limit + 1) false) = .done toggled
  clears : clearSquares toggled.size 5 toggled = .done flags
  size_toggled : toggled.size = limit + 1
  size_flags : flags.size = limit + 1
  parity : ∀ k ≤ limit, flag toggled k = true ↔ Odd (pairs k).ncard
  sifted : ∀ k ≤ limit, flag flags k = true ↔ SelfSifted limit flags k
  /-- A smaller limit leaves the same flags, and fewer of them. -/
  shorter : ∀ smaller ≤ limit, ∃ fewer,
    sieveTable smaller (Array.replicate (smaller + 1) false) = .done fewer ∧
      fewer.size = smaller + 1 ∧ fewer.toList <+: flags.toList
  greatest : ∃ found ≤ limit, answer.toInt = found ∧ flag flags found = true ∧
    ∀ k, found < k → k ≤ limit → flag flags k = false

theorem Contents.finished {toggled : Array Bool} {answer : Int32}
    (contents : Contents limit toggled flags answer) :
    sieveTable limit (Array.replicate (limit + 1) false) = .done flags := by
  rw [sieveTable, contents.toggles, Run.done_bind, contents.clears]

/-- Every limit from 5 on that is within the domain has its tables. -/
theorem exists_contents (le : 5 ≤ limit) (limit_lt : limit < 0x80000000) :
    ∃ toggled flags, Contents limit toggled flags (Int32.ofNat (greatestPrime limit)) := by
  obtain ⟨toggled, toggles, size_toggled, parity⟩ := toggleRows_parity limit_lt
  obtain ⟨flags, finished, size_flags, primes⟩ := sieveTable_flags limit_lt
  have clears : clearSquares toggled.size 5 toggled = .done flags := by
    rwa [sieveTable, toggles, Run.done_bind] at finished
  obtain ⟨flagged, above⟩ := greatestPrime_flagged le limit_lt finished
  have found_le : greatestPrime limit ≤ limit := Nat.findGreatest_le limit
  refine ⟨toggled, flags, toggles, clears, size_toggled, size_flags, ?_, ?_, ?_,
    greatestPrime limit, found_le, ?_, flagged, above⟩
  · intro k k_le
    rw [parity k k_le, decide_eq_true_eq, ncard_pairs, Nat.odd_iff]
  · intro k k_le
    rw [primes k k_le, selfSifted_iff_prime primes k_le]
  · intro smaller smaller_le
    have smaller_lt : smaller < 0x80000000 := by omega
    obtain ⟨fewer, finished', size_fewer, primes'⟩ := sieveTable_flags smaller_lt
    refine ⟨fewer, finished', size_fewer, isPrefix_of_flags size_fewer (by omega) ?_⟩
    intro k k_le
    rw [primes' k k_le, primes k (by omega)]
  · exact Int32.toInt_ofNat_of_lt (by omega)

end Table

end TableKernels
