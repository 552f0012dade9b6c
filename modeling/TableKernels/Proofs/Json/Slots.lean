import TableKernels.Proofs.Json.Records

/-!
# The slots of a record

A record keeps what it has read in one slot for each of its fields. A member goes into the slot of
its name once; its name is refused when the slot is taken, and when no field has it.
-/

namespace TableKernels.Json.Fields

/-- A field of a record, which has a slot among what was read. -/
inductive Slot : {All Some : Type} → Fields All Some → Type → Type 1
  | here {α All Some : Type} {name : String} {codec : Codec α} {presence : Presence α}
      {rest : Fields All Some} : Slot (field name codec presence rest) α
  | there {α β All Some : Type} {name : String} {codec : Codec β} {presence : Presence β}
      {rest : Fields All Some} (slot : Slot rest α) : Slot (field name codec presence rest) α

namespace Slot

/-- The name of the member that goes into the slot. -/
def name {All Some α : Type} {fields : Fields All Some} : Slot fields α → String
  | @here _ _ _ name _ _ _ => name
  | there slot => slot.name

/-- The codec of the member that goes into the slot. -/
def codec {All Some α : Type} {fields : Fields All Some} : Slot fields α → Codec α
  | @here _ _ _ _ codec _ _ => codec
  | there slot => slot.codec

/-- Puts a value into the slot of its field. -/
def put {All Some α : Type} {fields : Fields All Some} (slot : Slot fields α) (value : α)
    (read : Some) : Some :=
  match slot, read with
  | here, (_, others) => (some value, others)
  | there slot, (first, others) => (first, slot.put value others)

end Slot

/-- The names of the members that were read. -/
def taken {All Some : Type} (fields : Fields All Some) (read : Some) : List String :=
  match fields, read with
  | done, _ => []
  | field name _ _ rest, (value, others) =>
    if value.isSome then name :: rest.taken others else rest.taken others

variable {All Some α : Type} {fields : Fields All Some} {slot : Slot fields α} {key : String}
  {read : Some}

theorem taken_start (fields : Fields All Some) : fields.taken fields.start = [] := by
  induction fields with
  | done => rfl
  | field name codec presence rest hypothesis => exact hypothesis

theorem mem_taken_field {name : String} {codec : Codec α} {presence : Presence α}
    {first : Option α} : key ∈ (field name codec presence fields).taken (first, read) ↔
      (first.isSome = true ∧ key = name) ∨ key ∈ fields.taken read := by
  rw [taken]
  split
  · next some => simp only [List.mem_cons, some, true_and]
  · next none => simp only [none, Bool.false_eq_true, false_and, false_or]

theorem taken_subset (fields : Fields All Some) (read : Some) :
    fields.taken read ⊆ fields.names := by
  induction fields with
  | done => exact List.Subset.refl _
  | field name codec presence rest hypothesis =>
    intro key again
    rcases mem_taken_field.mp again with ⟨_, rfl⟩ | again
    · exact List.mem_cons_self ..
    · exact List.mem_cons_of_mem _ (hypothesis _ again)

theorem exists_slot (known : key ∈ fields.names) :
    ∃ (α : Type) (slot : Slot fields α), slot.name = key := by
  induction fields with
  | done => cases known
  | field name codec presence rest hypothesis =>
    rcases List.mem_cons.mp known with rfl | known
    · exact ⟨_, .here, rfl⟩
    · obtain ⟨α, slot, same⟩ := hypothesis known
      exact ⟨α, slot.there, same⟩

theorem Slot.mem_names (slot : Slot fields α) : slot.name ∈ fields.names := by
  induction slot with
  | here => exact List.mem_cons_self ..
  | there slot hypothesis => exact List.mem_cons_of_mem _ hypothesis

/-- With a value in its slot a name is taken, and no other is more or less so. -/
theorem Slot.mem_taken_put (slot : Slot fields α) (value : α) :
    key ∈ fields.taken (slot.put value read) ↔ key = slot.name ∨ key ∈ fields.taken read := by
  induction slot with
  | here =>
    obtain ⟨first, others⟩ := read
    simp only [put, name, mem_taken_field, Option.isSome_some, true_and]
    tauto
  | there slot hypothesis =>
    obtain ⟨first, others⟩ := read
    simp only [put, name, mem_taken_field, hypothesis, or_left_comm]

/-! ## What becomes of a name -/

/-- A member that comes for the first time is read into its slot. -/
theorem member?_free (slot : Slot fields α) (distinct : fields.names.Nodup)
    (free : slot.name ∉ fields.taken read) :
    fields.member? slot.name read =
      some (do Reader.colon; return slot.put (← slot.codec.read) read) := by
  induction slot with
  | here =>
    obtain ⟨first, others⟩ := read
    cases first with
    | none => exact member?_head others
    | some value => exact absurd (List.mem_cons_self ..) free
  | @there α β All Some name codec presence rest slot hypothesis =>
    obtain ⟨first, others⟩ := read
    obtain ⟨fresh, distinct⟩ := List.nodup_cons.mp distinct
    have other : slot.name ≠ name := fun same => fresh (same ▸ slot.mem_names)
    have free : slot.name ∉ rest.taken others :=
      fun again => free (mem_taken_field.mpr (.inr again))
    change (field name codec presence rest).member? slot.name (first, others) = _
    rw [member?_tail other, hypothesis distinct free, Option.map_some]
    congr 1
    funext text
    change Reader.bind (Reader.bind Reader.colon _) _ text = Reader.bind Reader.colon _ text
    simp only [Reader.bind]
    cases Reader.colon text with
    | error fault => rfl
    | ok passed =>
      obtain ⟨_, text⟩ := passed
      change Reader.bind (Reader.bind slot.codec.read _) _ text = Reader.bind slot.codec.read _ text
      simp only [Reader.bind]
      cases slot.codec.read text <;> rfl

theorem member?_taken (distinct : fields.names.Nodup) (again : key ∈ fields.taken read) :
    fields.member? key read = some (Reader.complain (.duplicateField key)) := by
  induction fields with
  | done => cases again
  | field name codec presence rest hypothesis =>
    obtain ⟨first, others⟩ := read
    obtain ⟨fresh, distinct⟩ := List.nodup_cons.mp distinct
    by_cases same : key = name
    · subst same
      have some : first.isSome = true := by
        rcases mem_taken_field.mp again with ⟨some, _⟩ | again
        · exact some
        · exact absurd (rest.taken_subset others again) fresh
      rw [member?, if_pos rfl, if_pos some]
    · have again : key ∈ rest.taken others := by
        rcases mem_taken_field.mp again with ⟨_, same'⟩ | again
        · exact absurd same' same
        · exact again
      rw [member?_tail same, hypothesis distinct again]
      rfl

theorem member?_unknown (unknown : key ∉ fields.names) : fields.member? key read = none := by
  induction fields with
  | done => rfl
  | field name codec presence rest hypothesis =>
    obtain ⟨other, unknown⟩ := not_or.mp (fun mem => unknown (List.mem_cons.mpr mem))
    obtain ⟨first, others⟩ := read
    rw [member?_tail other, hypothesis unknown]
    rfl

end TableKernels.Json.Fields
