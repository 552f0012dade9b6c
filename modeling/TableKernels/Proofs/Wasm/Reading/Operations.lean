import TableKernels.Proofs.Wasm.Reading.Items

/-!
# Codes of operators and accesses

Operators, loads and saves are told by their codes, which are those of three lists one after
another. An operator of one byte is found again at the place of its code, and so is each access.
-/

namespace TableKernels.Wasm

namespace Operator

theorem codes_listed :
    listed.map code =
      (List.range listed.length).map fun place => firstCode + UInt8.ofNat place := by
  cbv

theorem listed_or_saturates (operator : Operator) : operator ∈ listed ∨ operator ∈ saturations := by
  cases operator with
  | isZero width => cases width <;> exact .inl (by decide)
  | compare width relation => cases width <;> cases relation <;> exact .inl (by decide)
  | compareFloat width relation => cases width <;> cases relation <;> exact .inl (by decide)
  | count width counted => cases width <;> cases counted <;> exact .inl (by decide)
  | combine width operation => cases width <;> cases operation <;> exact .inl (by decide)
  | changeFloat width change => cases width <;> cases change <;> exact .inl (by decide)
  | combineFloat width operation => cases width <;> cases operation <;> exact .inl (by decide)
  | wrap | demote | promote => exact .inl (by decide)
  | extend signed => cases signed <;> exact .inl (by decide)
  | extendPart part => cases part <;> exact .inl (by decide)
  | toBits width | ofBits width => cases width <;> exact .inl (by decide)
  | truncate width source signed | convert width source signed =>
    cases width <;> cases source <;> cases signed <;> exact .inl (by decide)
  | saturate width source signed =>
    cases width <;> cases source <;> cases signed <;> exact .inr (by decide)

variable {operator : Operator}

/-- The code of a listed operator says where it stands in the list. -/
theorem exists_place_of_mem_listed (member : operator ∈ listed) :
    ∃ place, place < 128 ∧ listed[place]? = some operator ∧
      operator.code = firstCode + UInt8.ofNat place := by
  obtain ⟨place, found⟩ := List.mem_iff_getElem?.mp member
  have inside : place < listed.length := (List.getElem?_eq_some_iff.mp found).1
  have coded := congrArg (·[place]?) codes_listed
  simp only [List.getElem?_map, found, List.getElem?_range inside, Option.map_some] at coded
  exact ⟨place, inside, found, Option.some.inj coded⟩

theorem toNat_code_of_place {place : ℕ} (inside : place < 128) :
    (firstCode + UInt8.ofNat place).toNat = 0x45 + place := by
  rw [UInt8.toNat_add, toNat_ofNat8 (by omega)]
  change (0x45 + place) % 256 = _
  omega

/-- An operator of one byte is the one with its code. -/
theorem ofCode?_code (member : operator ∈ listed) : ofCode? operator.code = some operator := by
  obtain ⟨place, inside, found, coded⟩ := exists_place_of_mem_listed member
  have value := toNat_code_of_place inside
  rw [coded, ofCode?, if_pos (UInt8.le_iff_toNat_le.mpr (value ▸ Nat.le_add_right _ _)),
    UInt8.toNat_sub_of_le _ _ (UInt8.le_iff_toNat_le.mpr (value ▸ Nat.le_add_right _ _)), value,
    show 0x45 + place - firstCode.toNat = place from Nat.add_sub_cancel_left _ _, table,
    List.getElem?_toArray, found]

/-- The codes of operators are behind those of accesses. -/
theorem le_code (member : operator ∈ listed) : 0x45 ≤ operator.code ∧ operator.code ≤ 0xc4 := by
  obtain ⟨place, inside, _, coded⟩ := exists_place_of_mem_listed member
  have value := toNat_code_of_place inside
  rw [coded, UInt8.le_iff_toNat_le, UInt8.le_iff_toNat_le, value]
  exact ⟨Nat.le_add_right _ _, Nat.add_le_add_left (Nat.le_of_lt_succ inside) _⟩

theorem encode_of_mem_listed (member : operator ∈ listed) : operator.encode = [operator.code] := by
  cases operator with
  | saturate width source signed =>
    revert member
    cases width <;> cases source <;> cases signed <;> decide
  | _ => rfl

end Operator

/-! ## Accesses -/

theorem Load.ofCode?_code (form : Load) : ofCode? form.code = some form := by
  cases form <;> rfl

theorem Save.ofCode?_code (form : Save) : ofCode? form.code = some form := by
  cases form <;> rfl

/-- A code behind those of loads is not the code of a load. -/
theorem Load.ofCode?_of_le {code : UInt8} (behind : 0x36 ≤ code) : ofCode? code = none := by
  have low : 0x36 ≤ code.toNat := UInt8.le_iff_toNat_le.mp behind
  have above : firstCode ≤ code := UInt8.le_iff_toNat_le.mpr (by
    change 0x28 ≤ _
    omega)
  rw [ofCode?, if_pos above, List.getElem?_eq_none_iff, UInt8.toNat_sub_of_le _ _ above]
  change 14 ≤ _ - 0x28
  omega

/-- A code behind those of saves is not the code of a save. -/
theorem Save.ofCode?_of_le {code : UInt8} (behind : 0x3f ≤ code) : ofCode? code = none := by
  have low : 0x3f ≤ code.toNat := UInt8.le_iff_toNat_le.mp behind
  have above : firstCode ≤ code := UInt8.le_iff_toNat_le.mpr (by
    change 0x36 ≤ _
    omega)
  rw [ofCode?, if_pos above, List.getElem?_eq_none_iff, UInt8.toNat_sub_of_le _ _ above]
  change 9 ≤ _ - 0x36
  omega

end TableKernels.Wasm
