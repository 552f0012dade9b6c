import TableKernels.Proofs.Wasm.Reading.Code

/-!
# Reading back sections

A byte sequence is cut into the sections that were written, whatever they hold, as long as each is
shorter than a 32-bit word counts.
-/

namespace TableKernels.Wasm

/-- Bytes are cut into sections of a module, given steps and room enough for them. -/
def Cuts (bytes : Bytes) (sections : List Section) : Prop :=
  ∀ fuel room, bytes.length ≤ fuel → bytes.length ≤ room →
    Outline.ofSections fuel .module room bytes = ⟨sections, true⟩

namespace Cuts

variable {code : UInt8} {content rest : Bytes} {first : Section} {sections : List Section}

theorem nil : Cuts [] [] := by
  intro fuel room _ _
  cases fuel <;> rfl

/-- A section in front of others, with its size written in any way. -/
theorem cons_sized {size : Bytes} (code_lt : code < 128)
    (counts : Reads (Leb128.natural 32) size content.length)
    (found : Section.ofContent? code content = some first) (cuts : Cuts rest sections) :
    Cuts (code :: (size ++ (content ++ rest))) (first :: sections) := by
  intro fuel room enough roomy
  simp only [List.length_cons, List.length_append] at enough roomy
  obtain ⟨fuel, rfl⟩ := Nat.exists_eq_add_of_le' (by omega : 1 ≤ fuel)
  have used : 1 + (size ++ (content ++ rest)).length - (content ++ rest).length =
      1 + size.length := by
    simp only [List.length_append]
    omega
  have fits : ¬ (128 ≤ code ∨ room - (1 + size.length) < content.length) := by
    rintro (above | short)
    · exact absurd code_lt (UInt8.not_lt.mpr above)
    · omega
  have plain : Layer.module.isNesting code = false := rfl
  rw [Outline.ofSections, counts]
  simp only [used, if_neg fits, plain, Bool.false_eq_true, if_false, Reads.take content rest, found]
  rw [cuts fuel _ (by omega) (by omega)]
  rfl

theorem cons (code_lt : code < 128) (small : content.length < 2 ^ 32)
    (found : Section.ofContent? code content = some first) (cuts : Cuts rest sections) :
    Cuts (Section.encode code content ++ rest) (first :: sections) := by
  rw [Section.encode, sized, List.cons_append, List.append_assoc]
  exact cuts.cons_sized code_lt (Leb128.reads_natural small) found

end Cuts

/-- The sections of a list of items, of which there are none when there are no items. -/
def listedSections {α : Type} (listing : Listing) (encode : α → Bytes) (items : List α) :
    List Section :=
  if items.isEmpty then [] else [.items listing items.length (items.flatMap encode)]

theorem Cuts.listed {α : Type} {code : UInt8} {listing : Listing} {encode : α → Bytes}
    {items : List α} {rest : Bytes} {sections : List Section} (code_lt : code < 128)
    (known : Listing.ofCode? code = some listing)
    (each : ∀ item ∈ items, 1 ≤ (encode item).length)
    (small : (Module.listed code encode items).length < 2 ^ 32) (cuts : Cuts rest sections) :
    Cuts (Module.listed code encode items ++ rest)
      (listedSections listing encode items ++ sections) := by
  unfold Module.listed at small ⊢
  unfold listedSections
  split
  · exact cuts
  · next some =>
    rw [if_neg some] at small
    have content : (vector encode items).length < 2 ^ 32 := by
      simp only [Section.encodeItems, Section.encode, sized, List.length_cons,
        List.length_append] at small
      omega
    have short : items.length < 2 ^ 32 := by
      have le := length_le_flatMap each
      rw [vector, List.length_append] at content
      omega
    refine Cuts.cons code_lt content ?_ cuts
    have count : Leb128.natural 32 (vector encode items) =
        Option.some (items.length, items.flatMap encode) := Leb128.reads_natural short _
    unfold Section.ofContent?
    simp only [known, count, Option.map_some]

end TableKernels.Wasm
