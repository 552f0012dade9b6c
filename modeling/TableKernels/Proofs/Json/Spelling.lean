import Mathlib
import TableKernels.Json.Skip

/-!
# Texts of a tree

`Spells` says that a text spells a tree, with any blanks in front of any token. The compact and the
pretty text of a tree are two of its spellings, so what is shown of all spellings holds of both.
-/

namespace TableKernels.Json

/-- Blanks and nothing else. -/
def IsBlanks (text : List Char) : Prop := ∀ character ∈ text, isBlank character = true

/-- The text of a tree without parts. -/
def token? : Json → Option (List Char)
  | null => some "null".toList
  | boolean value => some (booleanText value)
  | integer value => some (integerText value)
  | float value => some (floatText value)
  | string value => some (quoted value)
  | array _ | object _ => none

mutual

/-- A text spells a tree, with nothing after it. -/
inductive Spells : Json → List Char → Prop
  | token {tree : Json} {lead text : List Char} (blanks : IsBlanks lead)
      (written : tree.token? = some text) : Spells tree (lead ++ text)
  | array {items : List Json} {lead text : List Char} (blanks : IsBlanks lead)
      (parts : SpellsItems true items text) : Spells (.array items) (lead ++ '[' :: text)
  | object {members : List (String × Json)} {lead text : List Char} (blanks : IsBlanks lead)
      (parts : SpellsMembers true members text) :
      Spells (.object members) (lead ++ '\x7b' :: text)

/-- A text spells the items of a list, up to the closing bracket. -/
inductive SpellsItems : Bool → List Json → List Char → Prop
  | done {first : Bool} {lead : List Char} (blanks : IsBlanks lead) :
      SpellsItems first [] (lead ++ [']'])
  | head {item : Json} {items : List Json} {text rest : List Char} (value : Spells item text)
      (others : SpellsItems false items rest) : SpellsItems true (item :: items) (text ++ rest)
  | next {item : Json} {items : List Json} {lead text rest : List Char} (blanks : IsBlanks lead)
      (value : Spells item text) (others : SpellsItems false items rest) :
      SpellsItems false (item :: items) (lead ++ ',' :: (text ++ rest))

/-- A text spells the members of an object, up to the closing brace. -/
inductive SpellsMembers : Bool → List (String × Json) → List Char → Prop
  | done {first : Bool} {lead : List Char} (blanks : IsBlanks lead) :
      SpellsMembers first [] (lead ++ ['\x7d'])
  | head {name : String} {value : Json} {members : List (String × Json)}
      {lead middle text rest : List Char} (blanks : IsBlanks lead) (colon : IsBlanks middle)
      (spelled : Spells value text) (others : SpellsMembers false members rest) :
      SpellsMembers true ((name, value) :: members)
        (lead ++ (quoted name ++ (middle ++ ':' :: (text ++ rest))))
  | next {name : String} {value : Json} {members : List (String × Json)}
      {before lead middle text rest : List Char} (comma : IsBlanks before)
      (blanks : IsBlanks lead) (colon : IsBlanks middle) (spelled : Spells value text)
      (others : SpellsMembers false members rest) :
      SpellsMembers false ((name, value) :: members)
        (before ++ ',' :: (lead ++ (quoted name ++ (middle ++ ':' :: (text ++ rest)))))

end

/-! ## Blanks -/

theorem isBlanks_nil : IsBlanks [] := nofun

theorem isBlanks_space : IsBlanks [' '] := by
  simp [IsBlanks, isBlank]

theorem isBlanks_newline (level : ℕ) : IsBlanks (newline level) := by
  intro character mem
  rcases List.mem_cons.mp mem with rfl | mem
  · rfl
  · rw [List.eq_of_mem_replicate mem]
    rfl

theorem IsBlanks.append {first second : List Char} (left : IsBlanks first)
    (right : IsBlanks second) : IsBlanks (first ++ second) :=
  List.forall_mem_append.mpr ⟨left, right⟩

theorem Spells.blanks {tree : Json} {lead text : List Char} (more : IsBlanks lead)
    (spells : Spells tree text) : Spells tree (lead ++ text) := by
  cases spells with
  | token blanks written =>
    rw [← List.append_assoc]
    exact .token (more.append blanks) written
  | array blanks parts =>
    rw [← List.append_assoc]
    exact .array (more.append blanks) parts
  | object blanks parts =>
    rw [← List.append_assoc]
    exact .object (more.append blanks) parts

theorem Spells.ofToken {tree : Json} {text : List Char} (written : tree.token? = some text) :
    Spells tree text :=
  .token isBlanks_nil written

/-! ## The compact text -/

mutual

theorem spells_compact (tree : Json) : Spells tree tree.compact := by
  cases tree with
  | null => exact .ofToken rfl
  | boolean value => exact .ofToken rfl
  | integer value => exact .ofToken rfl
  | float value => exact .ofToken rfl
  | string value => exact .ofToken rfl
  | array items =>
    cases items with
    | nil => exact .array isBlanks_nil (.done isBlanks_nil)
    | cons item items =>
      rw [compact, List.cons_append]
      exact .array isBlanks_nil (.head (spells_compact item) (spellsItems_compact items))
  | object members =>
    cases members with
    | nil => exact .object isBlanks_nil (.done isBlanks_nil)
    | cons member members =>
      obtain ⟨name, value⟩ := member
      rw [compact, List.append_assoc, List.cons_append, List.cons_append]
      exact .object isBlanks_nil (.head isBlanks_nil isBlanks_nil (spells_compact value)
        (spellsMembers_compact members))

theorem spellsItems_compact (items : List Json) :
    SpellsItems false items (compactItems items) := by
  cases items with
  | nil => exact .done isBlanks_nil
  | cons item items =>
    rw [compactItems, List.cons_append]
    exact .next isBlanks_nil (spells_compact item) (spellsItems_compact items)

theorem spellsMembers_compact (members : List (String × Json)) :
    SpellsMembers false members (compactMembers members) := by
  cases members with
  | nil => exact .done isBlanks_nil
  | cons member members =>
    obtain ⟨name, value⟩ := member
    rw [compactMembers, List.append_assoc, List.cons_append, List.cons_append]
    exact .next isBlanks_nil isBlanks_nil isBlanks_nil (spells_compact value)
      (spellsMembers_compact members)

end

/-! ## The pretty text -/

mutual

theorem spells_pretty (level : ℕ) (tree : Json) : Spells tree (tree.pretty level) := by
  cases tree with
  | null => exact .ofToken rfl
  | boolean value => exact .ofToken rfl
  | integer value => exact .ofToken rfl
  | float value => exact .ofToken rfl
  | string value => exact .ofToken rfl
  | array items =>
    cases items with
    | nil => exact .array isBlanks_nil (.done isBlanks_nil)
    | cons item items =>
      rw [pretty, List.cons_append, List.cons_append]
      exact .array isBlanks_nil (.head ((spells_pretty (level + 1) item).blanks
        (isBlanks_newline (level + 1))) (spellsItems_pretty level items))
  | object members =>
    cases members with
    | nil => exact .object isBlanks_nil (.done isBlanks_nil)
    | cons member members =>
      obtain ⟨name, value⟩ := member
      have spelled := (spells_pretty (level + 1) value).blanks isBlanks_space
      have parts : SpellsMembers true ((name, value) :: members) _ :=
        .head (isBlanks_newline (level + 1)) isBlanks_nil
        spelled (spellsMembers_pretty level members)
      rw [pretty]
      simpa using Spells.object isBlanks_nil parts

theorem spellsItems_pretty (level : ℕ) (items : List Json) :
    SpellsItems false items (prettyItems level items) := by
  cases items with
  | nil => exact .done (isBlanks_newline level)
  | cons item items =>
    rw [prettyItems, List.cons_append, List.cons_append]
    exact .next isBlanks_nil ((spells_pretty (level + 1) item).blanks
      (isBlanks_newline (level + 1))) (spellsItems_pretty level items)

theorem spellsMembers_pretty (level : ℕ) (members : List (String × Json)) :
    SpellsMembers false members (prettyMembers level members) := by
  cases members with
  | nil => exact .done (isBlanks_newline level)
  | cons member members =>
    obtain ⟨name, value⟩ := member
    have spelled := (spells_pretty (level + 1) value).blanks isBlanks_space
    have parts : SpellsMembers false ((name, value) :: members) _ :=
      .next isBlanks_nil (isBlanks_newline (level + 1)) isBlanks_nil
      spelled (spellsMembers_pretty level members)
    rw [prettyMembers]
    simpa using parts

end

end TableKernels.Json
