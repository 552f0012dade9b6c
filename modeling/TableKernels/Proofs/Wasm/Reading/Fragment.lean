import TableKernels.Proofs.Wasm.Reading.Code

/-!
# Reading back a fragment of code

Instructions in the middle of a body are read back whatever bytes follow them, as long as those
bytes are code up to an end. More steps than a decoder of code needs change nothing, so that the
bound on its steps can be set by the whole of the bytes.
-/

namespace TableKernels.Wasm

variable {α β : Type}

namespace Decoder

/-- One decoder takes all that another takes, and takes it in the same way. -/
def IsExtended (decoder wider : Decoder α) : Prop :=
  ∀ bytes result, decoder bytes = some result → wider bytes = some result

theorem IsExtended.refl (decoder : Decoder α) : decoder.IsExtended decoder :=
  fun _ _ read => read

theorem IsExtended.bind {decoder wider : Decoder α} {next next' : α → Decoder β}
    (first : decoder.IsExtended wider) (second : ∀ value, (next value).IsExtended (next' value)) :
    IsExtended (decoder >>= next) (wider >>= next') := by
  intro bytes result read
  change Decoder.bind _ _ _ = _ at read ⊢
  simp only [Decoder.bind] at read ⊢
  split at read
  · next value rest taken =>
    rw [first _ _ taken]
    exact second value _ _ read
  · cases read

end Decoder

open Decoder (IsExtended)

theorem decodeClosed_isExtended {run run' : Decoder (List Instr × UInt8)}
    (extended : run.IsExtended run') : IsExtended (decodeClosed run) (decodeClosed run') :=
  extended.bind fun _ => .refl _

theorem decodeBranch_isExtended {run run' : Decoder (List Instr × UInt8)}
    (extended : run.IsExtended run') (type : BlockType) :
    IsExtended (decodeBranch type run) (decodeBranch type run') := by
  refine extended.bind fun (body, last) => ?_
  dsimp only
  split
  · exact .refl _
  · exact (decodeClosed_isExtended extended).bind fun _ => .refl _

theorem decodeInstr_isExtended {run run' : Decoder (List Instr × UInt8)}
    (extended : run.IsExtended run') (code : UInt8) :
    IsExtended (decodeInstr run code) (decodeInstr run' code) := by
  unfold decodeInstr
  split
  all_goals first
    | exact .refl _
    | exact (IsExtended.refl _).bind fun _ =>
        (decodeClosed_isExtended extended).bind fun _ => .refl _
    | exact (IsExtended.refl _).bind (decodeBranch_isExtended extended)

theorem decodeRunFrom_isExtended {fuel fuel' : ℕ} (le : fuel ≤ fuel') :
    IsExtended (decodeRunFrom fuel) (decodeRunFrom fuel') := by
  induction fuel generalizing fuel' with
  | zero => exact fun _ _ read => nomatch read
  | succ fuel hypothesis =>
    obtain ⟨fuel', rfl⟩ := Nat.exists_eq_add_of_le' (Nat.one_le_of_lt le)
    have shorter := hypothesis (Nat.succ_le_succ_iff.mp le)
    refine (IsExtended.refl _).bind fun code => ?_
    split
    · exact .refl _
    · exact (decodeInstr_isExtended shorter code).bind fun instr => shorter.bind fun _ => .refl _

/-- Instructions in front of code are read one by one, until the bytes behind them are left. -/
theorem decodeRunFrom_append {after rest : Bytes} {code' : List Instr} {last : UInt8} {fuel' : ℕ}
    (read : decodeRunFrom fuel' after = some ((code', last), rest)) (code : List Instr)
    (writable : areWritable code = true) (fuel : ℕ)
    (enough : (encodeRun code).length + fuel' ≤ fuel) :
    decodeRunFrom fuel (encodeRun code ++ after) = some ((code ++ code', last), rest) := by
  induction code generalizing fuel with
  | nil =>
    rw [encodeRun, List.length_nil, Nat.zero_add] at enough
    exact decodeRunFrom_isExtended enough _ _ read
  | cons instr code hypothesis =>
    obtain ⟨writable, writable'⟩ := (Bool.and_eq_true _ _).mp writable
    rw [encodeRun, List.length_append] at enough
    have some_step : 1 ≤ fuel' := by
      by_contra none
      rw [show fuel' = 0 by omega] at read
      cases read
    obtain ⟨fuel, rfl⟩ := Nat.exists_eq_add_of_le' (by omega : 1 ≤ fuel)
    obtain ⟨first, bytes, written, notEnd, notElse, readInstr⟩ :=
      reads_instr instr writable fuel (by omega)
    rw [written, List.length_cons] at enough
    have others := hypothesis writable' fuel (by omega)
    have front : encodeRun (instr :: code) ++ after =
        [first] ++ (bytes ++ (encodeRun code ++ after)) := by
      rw [encodeRun, written, List.append_assoc, List.cons_append, List.singleton_append]
    rw [front, decodeRunFrom, Decoder.bind_of_eq_some (Reads.byte first _),
      if_neg (by simp [notEnd, notElse]), Decoder.bind_of_eq_some (readInstr _)]
    change Decoder.bind _ _ _ = _
    rw [Decoder.bind, others]
    rfl

/-- Instructions in the middle of a body are read back, and what follows them as it was. -/
theorem decodeCode_append {after rest : Bytes} {code code' : List Instr}
    (writable : areWritable code = true) (read : decodeCode after = some (code', rest)) :
    decodeCode (encodeRun code ++ after) = some (code ++ code', rest) := by
  obtain ⟨⟨code'', last⟩, left, taken, ends⟩ := Decoder.bind_eq_some read
  obtain ⟨_, left', closed, ends⟩ := Decoder.bind_eq_some ends
  cases ends
  have run := decodeRunFrom_append taken code writable
    ((encodeRun code ++ after).length + 1) (by rw [List.length_append]; omega)
  rw [decodeCode, decodeClosed, Decoder.bind_of_eq_some run]
  exact Decoder.bind_of_eq_some closed

end TableKernels.Wasm
