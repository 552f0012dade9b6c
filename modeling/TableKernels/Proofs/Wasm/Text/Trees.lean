import TableKernels.Hosted.Linked
import TableKernels.Proofs.Wasm.Reading.Basic
import TableKernels.Proofs.Wasm.Text.Tokens

/-!
# Reading trees

`Spells` says that a text spells a tree, with any blanks in front of any token. Whatever trees a
text spells, these are the trees that are read. So a module in bytes can be handed over as a text
that quotes it, and nothing is lost on the way.
-/

namespace TableKernels.Wasm.Text

open Token (AreBlanks IsApart IsPlainStart IsWord ReadsAs SpellsBytes)

namespace Tree

mutual

/-- A text spells a tree, with nothing after it. -/
inductive Spells : Tree → List Char → Prop
  | word {lead letters : List Char} (blanks : AreBlanks lead) (isWord : IsWord letters) :
      Spells (.word (String.ofList letters)) (lead ++ letters)
  | name {lead letters : List Char} (blanks : AreBlanks lead) (nonempty : letters ≠ [])
      (spelled : ∀ character ∈ letters, Token.isLetter character = true) :
      Spells (.name (String.ofList letters)) (lead ++ '$' :: letters)
  | string {lead text : List Char} {content : Bytes} (blanks : AreBlanks lead)
      (spells : SpellsBytes content text) :
      Spells (.string content) (lead ++ '\x22' :: (text ++ ['\x22']))
  | list {lead text : List Char} {items : List Tree} (blanks : AreBlanks lead)
      (parts : SpellsAll items text) : Spells (.list items) (lead ++ '(' :: (text ++ [')']))

/-- A text spells trees in a row; only lists need not be set apart from what follows them. -/
inductive SpellsAll : List Tree → List Char → Prop
  | nil {lead : List Char} (blanks : AreBlanks lead) : SpellsAll [] lead
  | cons {tree : Tree} {trees : List Tree} {text rest : List Char} (spells : Spells tree text)
      (apart : tree.isList = true ∨ IsApart rest) (others : SpellsAll trees rest) :
      SpellsAll (tree :: trees) (text ++ rest)

end

mutual

/-- The tokens of a tree. -/
def tokens : Tree → List Token
  | .word letters => [.word letters]
  | .name letters => [.name letters]
  | .note kind => [.note kind]
  | .string content => [.string content]
  | .list items => .opening :: (tokensOfAll items ++ [.closing])

/-- The tokens of trees in a row. -/
def tokensOfAll : List Tree → List Token
  | [] => []
  | tree :: rest => tree.tokens ++ tokensOfAll rest

end

/-! ## From a text to tokens -/

theorem isPlainStart_blanks {lead text : List Char} (blanks : AreBlanks lead)
    (start : IsPlainStart text) : IsPlainStart (lead ++ text) := by
  cases lead with
  | nil => exact start
  | cons character lead =>
    have blank := blanks character List.mem_cons_self
    exact Token.isPlainStart_cons (Token.ne_of_isBlank blank (by decide))
      (Token.ne_of_isBlank blank (by decide)) (Token.ne_of_isBlank blank (by decide))

theorem Spells.isPlainStart {tree : Tree} {text : List Char} (spells : Spells tree text)
    (after : List Char) : IsPlainStart (text ++ after) := by
  cases spells with
  | @word lead letters blanks isWord =>
    rw [List.append_assoc]
    refine isPlainStart_blanks blanks ?_
    cases letters with
    | nil => exact absurd rfl isWord.nonempty
    | cons first letters =>
      have letter := isWord.spelled first List.mem_cons_self
      exact Token.isPlainStart_cons (Token.ne_of_isLetter letter (by decide))
        (isWord.unmarked first rfl).2 (Token.ne_of_isLetter letter (by decide))
  | name blanks nonempty spelled =>
    rw [List.append_assoc]
    exact isPlainStart_blanks blanks (Token.isPlainStart_cons (by decide) (by decide) (by decide))
  | string blanks spells =>
    rw [List.append_assoc]
    exact isPlainStart_blanks blanks (Token.isPlainStart_cons (by decide) (by decide) (by decide))
  | list blanks parts =>
    rw [List.append_assoc]
    exact isPlainStart_blanks blanks (Token.isPlainStart_cons (by decide) (by decide) (by decide))

theorem SpellsAll.isPlainStart {trees : List Tree} {text after : List Char}
    (spells : SpellsAll trees text) (start : IsPlainStart after) :
    IsPlainStart (text ++ after) := by
  cases spells with
  | nil blanks => exact isPlainStart_blanks blanks start
  | cons spells apart others =>
    rw [List.append_assoc]
    exact spells.isPlainStart _

mutual

theorem Spells.reads {tree : Tree} {text after : List Char} {tokens : List Token}
    (spells : Spells tree text) (apart : tree.isList = true ∨ IsApart after)
    (reads : ReadsAs after tokens) : ReadsAs (text ++ after) (tree.tokens ++ tokens) := by
  cases spells with
  | word blanks isWord =>
    rw [List.append_assoc]
    exact (reads.word isWord (apart.resolve_left nofun)).blanks blanks
  | name blanks nonempty spelled =>
    rw [List.append_assoc]
    exact (reads.name nonempty spelled (apart.resolve_left nofun)).blanks blanks
  | string blanks spells =>
    rw [List.append_assoc, List.cons_append, List.append_assoc]
    exact (reads.string spells (apart.resolve_left nofun)).blanks blanks
  | list blanks parts =>
    -- The parenthesis that closes the list ends whatever token stands in front of it.
    have closed : IsApart (')' :: after) := Token.isApart_cons (by decide) (by decide)
    have plain : IsPlainStart (')' :: after) :=
      Token.isPlainStart_cons (by decide) (by decide) (by decide)
    simp only [Tree.tokens, List.append_assoc, List.cons_append, List.nil_append]
    exact ((parts.reads closed reads.closing).opening (parts.isPlainStart plain)).blanks blanks

theorem SpellsAll.reads {trees : List Tree} {text after : List Char} {tokens : List Token}
    (spells : SpellsAll trees text) (apart : IsApart after) (reads : ReadsAs after tokens) :
    ReadsAs (text ++ after) (tokensOfAll trees ++ tokens) := by
  cases spells with
  | nil blanks => exact reads.blanks blanks
  | cons spells separate others =>
    rw [List.append_assoc, tokensOfAll, List.append_assoc]
    exact spells.reads (separate.imp_right (·.append apart)) (others.reads apart reads)

end

/-! ## From tokens to trees -/

mutual

theorem foldlM_tokens (tree : Tree) (items : List Tree) (outer : List (List Tree)) :
    tree.tokens.foldlM Nesting.add? ⟨items, outer, 0⟩ = some ⟨tree :: items, outer, 0⟩ := by
  cases tree with
  | word | name | note | string => rfl
  | list parts =>
    have opened : Nesting.add? ⟨items, outer, 0⟩ .opening = some ⟨[], items :: outer, 0⟩ := rfl
    rw [tokens, List.foldlM_cons, opened, Option.bind_eq_bind, Option.bind_some,
      List.foldlM_append, foldlM_tokensOfAll parts]
    simp [Nesting.add?]

theorem foldlM_tokensOfAll (trees items : List Tree) (outer : List (List Tree)) :
    (tokensOfAll trees).foldlM Nesting.add? ⟨items, outer, 0⟩ =
      some ⟨trees.reverse ++ items, outer, 0⟩ := by
  cases trees with
  | nil => rfl
  | cons tree trees =>
    rw [tokensOfAll, List.foldlM_append, foldlM_tokens tree, Option.bind_eq_bind,
      Option.bind_some, foldlM_tokensOfAll trees, List.reverse_cons, List.append_assoc]
    rfl

end

theorem tokens_ne_nil (tree : Tree) : tree.tokens ≠ [] := by
  cases tree <;> simp [tokens]

/-- The trees that a text spells are the trees that are read. -/
theorem read?_of_spells {trees : List Tree} {text : List Char} (spells : SpellsAll trees text)
    (nonempty : trees ≠ []) : read? (String.ofList text) = some trees := by
  have reads := spells.reads Token.isApart_nil Token.readsAs_nil
  rw [List.append_nil, List.append_nil] at reads
  have some : (tokensOfAll trees).isEmpty = false := by
    cases trees with
    | nil => exact absurd rfl nonempty
    | cons tree trees =>
      simp [tokensOfAll, tree.tokens_ne_nil]
  rw [read?, reads.readAll?, Option.bind_eq_bind, Option.bind_some, some, Nesting.empty]
  simp [foldlM_tokensOfAll, Nesting.close?]

end Tree

/-! ## Modules in quotes -/

theorem strings_map (contents : List Bytes) :
    Parse.strings (contents.map .string) = some (contents.flatten, []) := by
  induction contents with
  | nil => rfl
  | cons content contents hypothesis =>
    obtain ⟨joined, found, same⟩ := Option.map_eq_some_iff.mp hypothesis
    cases same
    rw [List.map_cons, Parse.strings, List.foldrM_cons, found]
    rfl

theorem assemble?_binary {contents : List Bytes} {text : List Char}
    (spells : Tree.SpellsAll
      [.list (.word "module" :: .word "binary" :: contents.map .string)] text) :
    assemble? (String.ofList text) = some contents.flatten := by
  have titled : Parse.titled (.word "binary" :: contents.map .string) =
      some (none, .word "binary" :: contents.map .string) := rfl
  rw [assemble?, Tree.read?_of_spells spells (List.cons_ne_nil _ _)]
  simp [titled, Parse.whole, strings_map]

theorem exists_utf8EncodeChar {character : Char} (printed : character ≠ '\x00') :
    ∃ first others, String.utf8EncodeChar character = first :: others ∧ first ≠ 0 := by
  have pos : character.val.toNat ≠ 0 := by
    intro zero
    exact printed (Char.ext (UInt32.toNat.inj zero))
  have nonzero (number : ℕ) (small : number < 256) (pos : number ≠ 0) :
      UInt8.ofNat number ≠ 0 := by
    intro zero
    have value := congrArg UInt8.toNat zero
    rw [UInt8.toNat_ofNat_of_lt' small] at value
    exact pos value
  unfold String.utf8EncodeChar
  dsimp only
  split_ifs with one two three
  · exact ⟨_, _, rfl, nonzero _ (by omega) pos⟩
  all_goals exact ⟨_, _, rfl, nonzero _ (by omega) (by omega)⟩

/-- A text that begins with a printed character is not mistaken for a module in bytes. -/
theorem bytesOfSource?_toUTF8 {text : List Char} (start : IsPlainStart text) :
    bytesOfSource? (String.ofList text).toUTF8.toList = assemble? (String.ofList text) := by
  have other : magic.isPrefixOf (String.ofList text).toUTF8.toList = false := by
    rw [toList_eq]
    change magic.isPrefixOf (String.ofList text).toByteArray.data.toList = false
    rw [String.toByteArray_ofList]
    cases text with
    | nil => rfl
    | cons character rest =>
      obtain ⟨first, others, encoded, nonzero⟩ :=
        exists_utf8EncodeChar (start character rfl).2.2
      have written : (character :: rest).utf8Encode.data.toList =
          first :: (others ++ rest.flatMap String.utf8EncodeChar) := by
        simp [List.utf8Encode, encoded]
      rw [written, magic, List.isPrefixOf_cons_cons, beq_eq_false_iff_ne.mpr nonzero.symm]
      rfl
  rw [bytesOfSource?, other, fromUTF8?_toUTF8]
  rfl

theorem ofSource?_binary {contents : List Bytes} {text : List Char}
    (spells : Tree.SpellsAll
      [.list (.word "module" :: .word "binary" :: contents.map .string)] text) :
    Module.ofSource? (String.ofList text).toUTF8.toList = Module.decode? contents.flatten := by
  have start := spells.isPlainStart Token.isPlainStart_nil
  rw [List.append_nil] at start
  rw [Module.ofSource?, bytesOfSource?_toUTF8 start, assemble?_binary spells, Option.bind_some]

/-- A byte as an escape in sixteens. -/
def escaped (byte : UInt8) : List Char :=
  ['\x5c', Nat.digitChar (byte.toNat / 16), Nat.digitChar (byte.toNat % 16)]

theorem hexValue?_digitChar : ∀ digit < 16,
    Text.hexValue? (Nat.digitChar digit) = some digit := by
  decide

theorem spellsBytes_escaped (content : Bytes) :
    SpellsBytes content (content.flatMap escaped) := by
  induction content with
  | nil => exact .nil
  | cons byte content hypothesis =>
    have small := byte.toNat_lt
    have spelled := SpellsBytes.escape (hexValue?_digitChar (byte.toNat / 16) (by omega))
      (hexValue?_digitChar (byte.toNat % 16) (by omega)) hypothesis
    rwa [Nat.div_add_mod, UInt8.ofNat_toNat] at spelled

/-- The text that hands over a module in bytes. -/
def binaryText (bytes : Bytes) : List Char :=
  "(module binary \x22".toList ++ bytes.flatMap escaped ++ ['\x22', ')']

theorem spells_binaryText (bytes : Bytes) :
    Tree.SpellsAll [.list [.word "module", .word "binary", .string bytes]] (binaryText bytes) := by
  have module : IsWord ['m', 'o', 'd', 'u', 'l', 'e'] :=
    Token.isWord_cons (by decide) (by decide) (by decide)
  have binary : IsWord ['b', 'i', 'n', 'a', 'r', 'y'] :=
    Token.isWord_cons (by decide) (by decide) (by decide)
  have none : AreBlanks [] := nofun
  have space : AreBlanks [' '] := by
    simp [AreBlanks, Token.isBlank]
  have apart (rest : List Char) : IsApart (' ' :: rest) := Token.isApart_blank (by decide)
  have string := Tree.SpellsAll.cons (.string space (spellsBytes_escaped bytes))
    (.inr Token.isApart_nil) (.nil none)
  have second := Tree.SpellsAll.cons (.word space binary) (.inr (apart _)) string
  have first := Tree.SpellsAll.cons (.word none module) (.inr (apart _)) second
  have whole := Tree.SpellsAll.cons (.list none first) (.inl rfl) (.nil none)
  unfold binaryText
  simpa using whole

end TableKernels.Wasm.Text

namespace TableKernels

open Wasm

/-- Whether a module is handed over in bytes or quoted in a text, the same module is linked. -/
theorem LinkedModule.ofModule?_binaryText (rest : Bytes) :
    ofModule? (String.ofList (Text.binaryText (magic ++ rest))).toUTF8.toList =
      ofModule? (magic ++ rest) := by
  have spells : Text.Tree.SpellsAll
      [.list (.word "module" :: .word "binary" :: [magic ++ rest].map .string)]
      (Text.binaryText (magic ++ rest)) := Text.spells_binaryText _
  have quoted := Text.ofSource?_binary spells
  rw [List.flatten_cons, List.flatten_nil, List.append_nil] at quoted
  rw [ofModule?, ofModule?, quoted, Module.ofSource?, bytesOfSource?_magic_append, Option.bind_some]

end TableKernels
