import Mathlib
import TableKernels.Config

/-!
# Valid configurations

What is known of a configuration that was validated, and the range checks of an argument in numbers.
-/

namespace TableKernels

/-- Steps in a row that give something back: the first one did, and so did the others behind it. -/
theorem exists_of_bind_eq_ok {ε α β : Type} {first : Except ε α} {others : α → Except ε β}
    {value : β} (run : (first >>= others) = .ok value) :
    ∃ between, first = .ok between ∧ others between = .ok value := by
  cases first with
  | error fault => cases run
  | ok between => exact ⟨between, rfl, run⟩

/-- A configuration that describes a module. -/
structure Config.IsValid (config : Config) : Prop where
  finite : config.globalConst.isFinite = true
  initial_pos : 1 ≤ config.initialPages.toNat
  initial_le : config.initialPages.toNat ≤ config.maxPages.toNat
  max_le : config.maxPages.toNat ≤ pageCeiling
  fibonacciCap : ∀ cap ∈ config.fibonacciCap, 0 ≤ cap.toInt
  sieveCap : ∀ cap ∈ config.sieveCap, 0 ≤ cap.toInt

namespace Config

theorem validateCap_eq_ok {field : String} {cap? : Option Int64} :
    validateCap field cap? = .ok () ↔ ∀ cap ∈ cap?, 0 ≤ cap.toInt := by
  rcases cap? with _ | cap
  · simp [validateCap]
  · simp only [validateCap, Int64.lt_iff_toInt_lt, Option.mem_some_iff, forall_eq']
    split
    · next negative => simpa using negative
    · next nonneg => simpa using nonneg

theorem ite_throw_eq_ok {condition : Prop} [Decidable condition] {fault : ConfigFault}
    {rest : Except ConfigFault Unit} :
    (if condition then throw fault else rest) = .ok () ↔ ¬ condition ∧ rest = .ok () := by
  split
  · next holds => exact ⟨nofun, fun both => absurd holds both.1⟩
  · next fails => exact ⟨fun rest => ⟨fails, rest⟩, fun both => both.2⟩

theorem bind_eq_ok {first rest : Except ConfigFault Unit} :
    (first >>= fun _ => rest) = .ok () ↔ first = .ok () ∧ rest = .ok () := by
  rcases first with _ | _
  · exact ⟨nofun, fun both => absurd both.1 nofun⟩
  · exact ⟨fun rest => ⟨rfl, rest⟩, fun both => both.2⟩

/-- Validation accepts exactly the configurations that describe a module. -/
theorem validate_eq_ok {config : Config} : config.validate = .ok () ↔ config.IsValid := by
  have chain : config.validate = .ok () ↔ config.globalConst.isFinite = true ∧
      config.initialPages ≠ 0 ∧ ¬ pageCeiling < config.maxPages.toNat ∧
        ¬ config.maxPages < config.initialPages ∧
          validateCap "max_fibonacci_n" config.fibonacciCap = .ok () ∧
            validateCap "max_sieve_limit" config.sieveCap = .ok () := by
    have unfolded : config.validate =
        if (!config.globalConst.isFinite) = true then throw (.constantNotFinite config.globalConst)
        else if (config.initialPages == 0) = true then throw .noInitialPages
        else if pageCeiling < config.maxPages.toNat then throw (.maxAboveCeiling config.maxPages)
        else if config.maxPages < config.initialPages then
          throw (.initialAboveMax config.initialPages config.maxPages)
        else (validateCap "max_fibonacci_n" config.fibonacciCap >>= fun _ =>
          validateCap "max_sieve_limit" config.sieveCap) := by
      unfold validate
      repeat' split
      all_goals rfl
    rw [unfolded, ite_throw_eq_ok, ite_throw_eq_ok, ite_throw_eq_ok, ite_throw_eq_ok, bind_eq_ok]
    simp
  rw [chain, validateCap_eq_ok, validateCap_eq_ok, UInt64.lt_iff_toNat_lt, Ne, ← UInt64.toNat_inj]
  have zero : (0 : UInt64).toNat = 0 := rfl
  rw [zero]
  constructor
  · rintro ⟨finite, some, within, ordered, fibonacciCap, sieveCap⟩
    exact ⟨finite, by omega, by omega, by omega, fibonacciCap, sieveCap⟩
  · rintro ⟨finite, initial_pos, initial_le, max_le, fibonacciCap, sieveCap⟩
    exact ⟨finite, by omega, by omega, by omega, fibonacciCap, sieveCap⟩

end Config

end TableKernels
