import TableKernels.Proofs.Inspection.Reports
import TableKernels.Proofs.Wasm.Reading.Sections

/-!
# Custom sections among others

A byte sequence is cut into sections in one way only, and each section is cut off by its own size.
So where one section ends, any other may be put in between, and the sections around it are found as
before. A custom section put there is found with its name and its content, whatever these are, and
however its two lengths are padded. The module that the sections make is the same without it.
-/

namespace TableKernels.Wasm

variable {bytes front back : Bytes} {sections first second : List Section}

/-! ## Rows of sections -/

/-- A number is read of the bytes that it takes, whatever follows them. -/
theorem Leb128.exists_of_natural {width number : ℕ} {rest : Bytes}
    (read : natural width bytes = some (number, rest)) :
    ∃ taken, bytes = taken ++ rest ∧ Reads (natural width) taken number := by
  induction bytes generalizing width number with
  | nil => cases read
  | cons byte bytes hypothesis =>
    rw [natural] at read
    split at read
    · next last =>
      split at read
      · cases read
      · next fits =>
        cases read
        refine ⟨[byte], rfl, fun rest => ?_⟩
        rw [List.singleton_append, natural, if_pos last, if_neg fits]
    · next more =>
      split at read
      · cases read
      · next wide =>
        obtain ⟨⟨high, left⟩, others, same⟩ := Option.map_eq_some_iff.mp read
        cases same
        obtain ⟨taken, rfl, reads⟩ := hypothesis others
        refine ⟨byte :: taken, rfl, fun rest => ?_⟩
        rw [List.cons_append, natural, if_neg more, if_neg wide, reads]
        rfl

theorem Decoder.eq_of_require {condition : Bool} {value : Unit} {rest : Bytes}
    (required : require condition bytes = some (value, rest)) : bytes = rest := by
  cases condition with
  | false => cases required
  | true =>
    cases required
    rfl

/-- Bytes are a row of sections of a module, each with its size in front of its content. -/
inductive Sectioned : Bytes → List Section → Prop
  | nil : Sectioned [] []
  | cons {code : UInt8} {size content rest : Bytes} {found : Section} {sections : List Section}
      (code_lt : code < 128) (counts : Reads (Leb128.natural 32) size content.length)
      (known : Section.ofContent? code content = some found) (others : Sectioned rest sections) :
      Sectioned (code :: (size ++ (content ++ rest))) (found :: sections)

namespace Sectioned

theorem cuts (sectioned : Sectioned bytes sections) : Cuts bytes sections := by
  induction sectioned with
  | nil => exact .nil
  | cons code_lt counts known _ hypothesis => exact .cons_sized code_lt counts known hypothesis

/-- What is cut to its end is a row of sections. -/
theorem of_ofSections {fuel room : ℕ}
    (cut : Outline.ofSections fuel .module room bytes = ⟨sections, true⟩) :
    Sectioned bytes sections := by
  induction fuel generalizing room bytes sections with
  | zero =>
    cases bytes with
    | nil =>
      cases cut
      exact .nil
    | cons code rest => cases cut
  | succ fuel hypothesis =>
    cases bytes with
    | nil =>
      cases cut
      exact .nil
    | cons code rest =>
      have plain : Layer.module.isNesting code = false := rfl
      rw [Outline.ofSections] at cut
      split at cut
      · cases cut
      · next size content counted =>
        simp only [plain, Bool.false_eq_true, if_false] at cut
        split at cut
        · cases cut
        · next fits =>
          split at cut
          · cases cut
          · next content' rest' taken =>
            split at cut
            · next found known =>
              obtain ⟨digits, rfl, counts⟩ := Leb128.exists_of_natural counted
              obtain ⟨others, cut', same⟩ : ∃ others,
                  Outline.ofSections fuel .module _ rest' = ⟨others, true⟩ ∧
                    found :: others = sections := by
                simp only [Outline.cons, Outline.mk.injEq] at cut
                exact ⟨_, congrArg (Outline.mk _) cut.2, cut.1⟩
              subst same
              obtain ⟨rfl, length⟩ := Decoder.take_eq_some taken
              rw [← length] at counts
              exact .cons (UInt8.not_le.mp fun above => fits (.inl above)) counts known
                (hypothesis cut')
            · cases cut

theorem exists_cons {code : UInt8} {size content rest : Bytes}
    (sectioned : Sectioned (code :: (size ++ (content ++ rest))) sections)
    (counts : Reads (Leb128.natural 32) size content.length) :
    ∃ found others, sections = found :: others ∧ Section.ofContent? code content = some found ∧
      Sectioned rest others := by
  generalize written : code :: (size ++ (content ++ rest)) = bytes at sectioned
  cases sectioned with
  | nil => cases written
  | @cons code' size' content' rest' found others _ counts' known more =>
    obtain ⟨rfl, same⟩ := List.cons.inj written
    -- The size is read back whatever follows, so the two ways to cut the bytes are the same.
    have read := counts (content ++ rest)
    rw [same, counts', Option.some.injEq, Prod.mk.injEq] at read
    obtain ⟨rfl, rfl⟩ := List.append_inj read.2.symm read.1.symm
    exact ⟨found, others, rfl, known, more⟩

theorem append (left : Sectioned front first) (right : Sectioned back second) :
    Sectioned (front ++ back) (first ++ second) := by
  induction left with
  | nil => exact right
  | cons code_lt counts known _ hypothesis =>
    rw [List.cons_append, List.append_assoc, List.append_assoc]
    exact .cons code_lt counts known hypothesis

theorem exists_append (whole : Sectioned (front ++ back) sections)
    (left : Sectioned front first) :
    ∃ second, sections = first ++ second ∧ Sectioned back second := by
  induction left generalizing sections with
  | nil => exact ⟨sections, rfl, whole⟩
  | cons _ counts known _ hypothesis =>
    rw [List.cons_append, List.append_assoc, List.append_assoc] at whole
    obtain ⟨found, others, rfl, known', rest⟩ := whole.exists_cons counts
    cases known.symm.trans known'
    obtain ⟨second, rfl, right⟩ := hypothesis rest
    exact ⟨second, rfl, right⟩

end Sectioned

/-! ## Modules -/

theorem Outline.ofBytes_header (sectioned : Sectioned bytes sections)
    (short : bytes.length < 0x10000000000000000) :
    ofBytes (Module.header ++ bytes) = ⟨sections, true⟩ :=
  sectioned.cuts _ _ (le_refl _) (by omega)

theorem Header.exists_of_decode {header : Header} {rest : Bytes}
    (read : decode bytes = some (header, rest)) :
    ∃ taken : Bytes, taken.length = Module.header.length ∧ bytes = taken ++ rest := by
  obtain ⟨start, left, first, read⟩ := Decoder.bind_eq_some read
  obtain ⟨_, _, required, read⟩ := Decoder.bind_eq_some read
  have kept := Decoder.eq_of_require required
  subst kept
  obtain ⟨version, left', second, read⟩ := Decoder.bind_eq_some read
  obtain ⟨layer, left'', third, read⟩ := Decoder.bind_eq_some read
  have same : left'' = rest := by
    cases known : Layer.ofBytes? layer with
    | none =>
      rw [known] at read
      cases read
    | some layer =>
      rw [known] at read
      exact (Prod.mk.inj (Option.some.inj read)).2
  subst same
  obtain ⟨rfl, start_length⟩ := Decoder.take_eq_some first
  obtain ⟨rfl, version_length⟩ := Decoder.take_eq_some second
  obtain ⟨rfl, layer_length⟩ := Decoder.take_eq_some third
  refine ⟨start ++ (version ++ layer), ?_, ?_⟩
  · rw [List.length_append, List.length_append, start_length, version_length, layer_length]
    rfl
  · rw [List.append_assoc, List.append_assoc]

/-- What is cut to its end and begins like a module is a header with a row of sections. -/
theorem Outline.exists_sectioned {whole : Bytes} (written : front ++ back = Module.header ++ whole)
    (complete : (ofBytes front).isComplete = true) :
    ∃ bytes, front = Module.header ++ bytes ∧ Sectioned bytes (ofBytes front).sections := by
  obtain ⟨bytes, rfl⟩ : ∃ bytes, front = Module.header ++ bytes := by
    cases read : Header.decode front with
    | none =>
      rw [ofBytes, read] at complete
      cases complete
    | some found =>
      obtain ⟨bytes, length, rfl⟩ := Header.exists_of_decode read
      rw [List.append_assoc] at written
      exact ⟨_, congrArg (· ++ _) (List.append_inj written length).1⟩
  have cut : ofSections bytes.length .module 0xffffffffffffffff bytes =
      ⟨(ofBytes (Module.header ++ bytes)).sections, true⟩ := by
    rw [← complete]
    rfl
  exact ⟨bytes, rfl, .of_ofSections cut⟩

/-! ## Custom sections -/

/-- A custom section in bytes: its name, its content, and its two lengths, which may be padded. -/
structure CustomSection where
  name : String
  content : Bytes
  /-- The written length of the name. -/
  nameSize : Bytes
  /-- The written length of what follows it. -/
  size : Bytes
  short : name.utf8ByteSize ≤ nameLimit
  counts_name : Reads (Leb128.natural 32) nameSize name.utf8ByteSize
  counts : Reads (Leb128.natural 32) size
    (nameSize.length + name.utf8ByteSize + content.length)

namespace CustomSection

/-- The bytes of the section, whose sizes may be padded. -/
def encode (custom : CustomSection) : Bytes :=
  0 :: (custom.size ++ (custom.nameSize ++ custom.name.toUTF8.toList ++ custom.content))

/-- The section that is read. -/
def found (custom : CustomSection) : Section := .custom custom.name custom.content

theorem sectioned (custom : CustomSection) : Sectioned custom.encode [custom.found] := by
  have length : (custom.nameSize ++ custom.name.toUTF8.toList ++ custom.content).length =
      custom.nameSize.length + custom.name.utf8ByteSize + custom.content.length := by
    rw [List.length_append, List.length_append, length_toUTF8]
  have counts := custom.counts
  rw [← length] at counts
  have name : Reads decodeName (custom.nameSize ++ (custom.name.toUTF8.toList ++ []))
      custom.name := by
    refine custom.counts_name.bind (Reads.require (decide_eq_true custom.short) ?_)
    rw [← length_toUTF8]
    refine (Reads.take _).bind ?_
    rw [fromUTF8?_toUTF8]
    exact Reads.pure custom.name
  rw [List.append_nil] at name
  have known : Section.ofContent? 0
      (custom.nameSize ++ custom.name.toUTF8.toList ++ custom.content) = some custom.found := by
    change (decodeName _).map _ = _
    rw [name]
    rfl
  have row := Sectioned.nil.cons (by decide) counts known
  rwa [List.append_nil] at row

theorem sectioned_all (customs : List CustomSection) :
    Sectioned (customs.flatMap encode) (customs.map found) := by
  induction customs with
  | nil => exact .nil
  | cons custom customs hypothesis =>
    rw [List.flatMap_cons]
    exact custom.sectioned.append hypothesis

end CustomSection

/-- Custom sections put where a section of a module ends are found there, among the others. -/
theorem Outline.ofBytes_insert {whole : Bytes} (written : front ++ back = Module.header ++ whole)
    (sectioned : Sectioned whole sections) (complete : (ofBytes front).isComplete = true)
    (customs : List CustomSection)
    (short : (front ++ (customs.flatMap (·.encode) ++ back)).length < 0x10000000000000000) :
    ∃ first second bytes, sections = first ++ second ∧ Sectioned back second ∧
      front ++ (customs.flatMap (·.encode) ++ back) = Module.header ++ bytes ∧
        ofBytes (Module.header ++ bytes) =
          ⟨first ++ (customs.map (·.found) ++ second), true⟩ := by
  obtain ⟨bytes, rfl, left⟩ := exists_sectioned written complete
  rw [List.append_assoc, List.append_cancel_left_eq] at written
  subst written
  obtain ⟨second, same, right⟩ := sectioned.exists_append left
  refine ⟨_, second, _, same, right, List.append_assoc .., ?_⟩
  rw [List.append_assoc, List.length_append] at short
  exact ofBytes_header (left.append ((CustomSection.sectioned_all customs).append right))
    (by omega)

/-! ## Modules without custom sections -/

/-- Whether a section is custom. -/
def Section.isCustom : Section → Bool
  | custom _ _ => true
  | _ => false

/-- The sections that are not custom. -/
def plainSections (sections : List Section) : List Section :=
  sections.filter fun one => !one.isCustom

theorem plainSections_insert (first second : List Section) (customs : List CustomSection) :
    plainSections (first ++ (customs.map (·.found) ++ second)) =
      plainSections (first ++ second) := by
  have none : plainSections (customs.map (·.found)) = [] :=
    List.filter_eq_nil_iff.mpr (List.forall_mem_map.mpr fun _ _ => Bool.false_ne_true)
  simp only [plainSections, List.filter_append] at none ⊢
  rw [none, List.nil_append]

theorem foldlM_plainSections {M : Type → Type} [Monad M] [LawfulMonad M] {State : Type}
    {step : State → Section → M State}
    (passes : ∀ state name content, step state (.custom name content) = pure state)
    (sections : List Section) (state : State) :
    (plainSections sections).foldlM step state = sections.foldlM step state := by
  induction sections generalizing state with
  | nil => rfl
  | cons one sections hypothesis =>
    cases one with
    | custom name content =>
      rw [List.foldlM_cons, passes, pure_bind]
      exact hypothesis state
    | _ =>
      simp only [plainSections, Section.isCustom] at hypothesis ⊢
      rw [List.filter_cons_of_pos rfl, List.foldlM_cons, List.foldlM_cons]
      simp only [hypothesis]

namespace Module

/-- The module without its custom sections. -/
def withoutCustoms (program : Module) : Module := { program with customs := [] }

/-- The draft without custom sections. -/
def Draft.withoutCustoms (draft : Draft) : Draft :=
  { draft with content := draft.content.withoutCustoms }

theorem Draft.pure_withoutCustoms {α : Type} (read : Option α) {put put' : α → Draft}
    (same : ∀ value, put' value = (put value).withoutCustoms) :
    (do pure (put' (← read))) = ((do pure (put (← read))) : Option Draft).map withoutCustoms := by
  cases read with
  | none => rfl
  | some value => exact congrArg some (same value)

theorem Draft.add?_withoutCustoms (draft : Draft) {one : Section} (plain : one.isCustom = false) :
    draft.withoutCustoms.add? one = (draft.add? one).map withoutCustoms := by
  cases one with
  | custom => cases plain
  | start | dataCount | unknown => rfl
  | code =>
    simp only [add?]
    exact pure_withoutCustoms _ fun _ => rfl
  | items listing count content =>
    cases listing with
    | tags => rfl
    | types =>
      simp only [add?]
      cases itemsOf? TypeEntry.decode count content with
      | none => rfl
      | some entries => exact pure_withoutCustoms (entries.mapM runnableType?) fun _ => rfl
    | _ =>
      simp only [add?]
      exact pure_withoutCustoms _ fun _ => rfl

/-- The parts of a module are gathered from the sections that are not custom. -/
theorem Draft.foldlM_withoutCustoms (sections : List Section) (draft : Draft) :
    (plainSections sections).foldlM add? draft.withoutCustoms =
      (sections.foldlM add? draft).map withoutCustoms := by
  induction sections generalizing draft with
  | nil => rfl
  | cons one sections hypothesis =>
    cases plain : one.isCustom with
    | true =>
      cases one with
      | custom name content =>
        exact hypothesis { draft with
          content := { draft.content with customs := draft.content.customs ++ [(name, content)] } }
      | _ => cases plain
    | false =>
      have kept : plainSections (one :: sections) = one :: plainSections sections :=
        List.filter_cons_of_pos (by rw [plain]; rfl)
      rw [kept, List.foldlM_cons, List.foldlM_cons, draft.add?_withoutCustoms plain]
      cases draft.add? one with
      | none => rfl
      | some draft => exact hypothesis draft

theorem inOrder_plainSections (sections : List Section) :
    inOrder (plainSections sections) = inOrder sections := by
  have ranks : (plainSections sections).filterMap rank? = sections.filterMap rank? := by
    rw [plainSections, List.filterMap_filter]
    refine List.filterMap_congr fun one _ => ?_
    cases one <;> rfl
  rw [inOrder, inOrder, ranks]

/-- A module is made of the sections that are not custom, but for its custom sections. -/
theorem ofSections?_plainSections (sections : List Section) :
    ofSections? (plainSections sections) = (ofSections? sections).map withoutCustoms := by
  have gathered := Draft.foldlM_withoutCustoms sections ⟨empty, [], [], none⟩
  simp only [ofSections?, inOrder_plainSections]
  split
  · rfl
  · change Option.bind ((plainSections sections).foldlM Draft.add?
      (Draft.withoutCustoms ⟨empty, [], [], none⟩)) _ = _
    rw [gathered]
    change _ = Option.map withoutCustoms (Option.bind (sections.foldlM Draft.add? _) _)
    cases sections.foldlM Draft.add? ⟨empty, [], [], none⟩ with
    | none => rfl
    | some draft =>
      simp only [Option.map_some, Option.bind_some, Draft.withoutCustoms, withoutCustoms]
      split
      · rfl
      · split
        · rfl
        · split <;> rfl

variable {Host : Type}

/-- An instance has nothing of the custom sections of its module. -/
theorem instantiate?_withoutCustoms (program : Module) (linker : Linker Host) (host : Host) :
    program.withoutCustoms.instantiate? linker host = program.instantiate? linker host := by
  rfl

end Module

end TableKernels.Wasm
