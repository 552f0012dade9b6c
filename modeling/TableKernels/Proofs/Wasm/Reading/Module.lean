import TableKernels.Proofs.Wasm.Reading.Sections

/-!
# Reading back modules

A module without tables, segments and start function is read back from its written form. The parts
that it has must be within the limits of the format, and the whole must be shorter than a 32-bit
word counts.
-/

namespace TableKernels.Wasm

/-- A function whose body is within the limits of the format. -/
structure Function.IsWritable (function : Function) : Prop where
  code : areWritable function.body.code = true
  groups : function.body.locals.length ≤ Body.localLimit
  locals : Body.localCount function.body.locals ≤ Body.localLimit
  data : usesData function.body.code = false

/-- A module that is read back from its written form. -/
structure Module.IsWritable (program : Module) : Prop where
  types : ∀ type ∈ program.types, Reads TypeEntry.decode type.encode ⟨type, false, false⟩
  imports : ∀ item ∈ program.imports, Reads Import.decode item.encode item
  functions : ∀ function ∈ program.functions, function.IsWritable
  memories : ∀ type ∈ program.memories, Reads MemoryType.decode type.encode type
  exports : ∀ item ∈ program.exports, Reads Export.decode item.encode item
  customs : ∀ custom ∈ program.customs, custom.1.utf8ByteSize ≤ nameLimit
  tables : program.tables = []
  start : program.start = none
  elements : program.elements = []
  data : program.data = []
  short : program.encode.length < 2 ^ 32

variable {α β : Type}

theorem itemsOf?_eq_some (decoder : Decoder α) {encode : β → Bytes} (view : β → α)
    (items : List β) (each : ∀ item ∈ items, Reads decoder (encode item) (view item)) :
    Module.itemsOf? decoder items.length (items.flatMap encode) = some (items.map view) :=
  (Reads.times each).whole

theorem mapM_map_eq_some {γ : Type} {f : α → Option β} (written : γ → α) (view : γ → β)
    (items : List γ) (each : ∀ item ∈ items, f (written item) = some (view item)) :
    (items.map written).mapM f = some (items.map view) := by
  induction items with
  | nil => rfl
  | cons item items hypothesis =>
    rw [List.map_cons, List.mapM_cons, each item (List.mem_cons_self ..),
      hypothesis fun other mem => each other (List.mem_cons_of_mem _ mem)]
    rfl

/-- The bytes of a body without the length in front of them. -/
def bodyBytes (function : Function) : Bytes :=
  vector Body.encodeLocals function.body.locals ++ encodeCode function.body.code

namespace Module

variable {program : Module}

/-- The sections of a module without tables, segments and start function. -/
def sections (program : Module) : List Section :=
  listedSections .types FuncType.encode program.types ++
    (listedSections .imports Import.encode program.imports ++
      (listedSections .functions (fun function => encodeIndex function.type) program.functions ++
        (listedSections .memories MemoryType.encode program.memories ++
          (listedSections .globals Global.encode program.globals ++
            (listedSections .exports Export.encode program.exports ++
              ((if program.functions.isEmpty then []
                else [.code (program.functions.map bodyBytes)]) ++
                program.customs.map fun custom => .custom custom.1 custom.2))))))

/-! ## Cutting -/

theorem cuts_customs {customs : List (String × Bytes)}
    (names : ∀ custom ∈ customs, custom.1.utf8ByteSize ≤ nameLimit)
    (small : (customs.flatMap encodeCustom).length < 2 ^ 32) :
    Cuts (customs.flatMap encodeCustom) (customs.map fun custom => .custom custom.1 custom.2) := by
  induction customs with
  | nil => exact Cuts.nil
  | cons custom customs hypothesis =>
    rw [List.flatMap_cons, List.length_append] at small
    have content : (encodeName custom.1 ++ custom.2).length < 2 ^ 32 := by
      simp only [encodeCustom, Section.encode, sized, List.length_cons, List.length_append] at *
      omega
    have name := reads_name (names custom (List.mem_cons_self ..))
    refine Cuts.cons (by decide) content ?_
      (hypothesis (fun other mem => names other (List.mem_cons_of_mem _ mem)) (by omega))
    change (decodeName (encodeName custom.1 ++ custom.2)).map _ = _
    rw [name, Option.map_some]

theorem encode_body (function : Function) : function.body.encode = sized (bodyBytes function) :=
  rfl

/-- The code section is cut into its bodies. -/
theorem cuts_code {functions : List Function} {rest : Bytes} {sections : List Section}
    (small : (listed 10 (fun function => function.body.encode) functions).length < 2 ^ 32)
    (cuts : Cuts rest sections) :
    Cuts (listed 10 (fun function => function.body.encode) functions ++ rest)
      ((if functions.isEmpty then [] else [.code (functions.map bodyBytes)]) ++ sections) := by
  unfold listed at small ⊢
  split
  · exact cuts
  · next some =>
    rw [if_neg some] at small
    have content : (vector (fun function => function.body.encode) functions).length < 2 ^ 32 := by
      simp only [Section.encodeItems, Section.encode, sized, List.length_cons,
        List.length_append] at small
      omega
    rw [vector, List.length_append] at content
    -- No body is empty, so there are no more bodies than bytes.
    have each : ∀ function ∈ functions, 1 ≤ function.body.encode.length := by
      intro function _
      have pos := Leb128.length_ofNat_pos (bodyBytes function).length
      rw [encode_body, sized, List.length_append]
      omega
    have short := length_le_flatMap each
    have bodies : ∀ function ∈ functions,
        Reads Section.body function.body.encode (bodyBytes function) := by
      intro function mem
      have le := (List.sublist_flatten_of_mem (List.mem_map_of_mem
        (f := fun function : Function => function.body.encode) mem)).length_le
      rw [← List.flatMap_def, encode_body, sized, List.length_append] at le
      have bound : (bodyBytes function).length < 2 ^ 32 := by omega
      exact (Leb128.reads_natural bound).bind (Reads.take _)
    have read : Reads Section.bodies (vector (fun function => function.body.encode) functions)
        (functions.map bodyBytes) :=
      (Leb128.reads_natural (by omega)).bind (Reads.times bodies)
    refine Cuts.cons (by decide) (by rw [vector, List.length_append]; omega) ?_ cuts
    change (Section.bodies.whole _).map _ = _
    rw [read.whole, Option.map_some]

theorem length_encodeIndex_pos (index : UInt32) : 1 ≤ (encodeIndex index).length :=
  Leb128.length_ofNat_pos _

theorem length_encodeName_pos (name : String) : 1 ≤ (encodeName name).length := by
  rw [encodeName, sized, List.length_append]
  have pos := Leb128.length_ofNat_pos name.toUTF8.toList.length
  omega

theorem IsWritable.any_usesData (writable : program.IsWritable) :
    program.functions.any (usesData ·.body.code) = false := by
  rw [List.any_eq_false]
  exact fun function mem => Bool.eq_false_iff.mp (writable.functions function mem).data

/-- No code takes bytes of segments, so their number is left out. -/
theorem IsWritable.encodeDataCount (writable : program.IsWritable) :
    program.encodeDataCount = [] := by
  rw [Module.encodeDataCount, writable.any_usesData]
  rfl

/-- What follows the header of a module is cut into its sections. -/
theorem IsWritable.cuts (writable : program.IsWritable) :
    ∃ body, program.encode = header ++ body ∧ body.length < 2 ^ 32 ∧
      Cuts body (sections program) := by
  have short := writable.short
  have whole : program.encode = header ++ (listed 1 FuncType.encode program.types ++
      (listed 2 Import.encode program.imports ++
        (listed 3 (fun function => encodeIndex function.type) program.functions ++
          (listed 5 MemoryType.encode program.memories ++
            (listed 6 Global.encode program.globals ++
              (listed 7 Export.encode program.exports ++
                (listed 10 (fun function => function.body.encode) program.functions ++
                  program.customs.flatMap encodeCustom))))))) := by
    simp only [encode, writable.tables, writable.start, writable.elements, writable.data,
      writable.encodeDataCount, listed, List.isEmpty_nil, if_true, List.append_nil,
      Option.map_none, Option.getD_none, List.append_assoc]
  rw [whole] at short ⊢
  simp only [List.length_append] at short
  refine ⟨_, rfl, by simp only [List.length_append]; omega, ?_⟩
  refine Cuts.listed (by decide) rfl (fun type _ => ?_) (by omega) ?_
  · simp [FuncType.encode]
  refine Cuts.listed (by decide) rfl (fun item _ => ?_) (by omega) ?_
  · have pos := length_encodeName_pos item.moduleName
    simp only [Import.encode, List.length_append]
    omega
  refine Cuts.listed (by decide) rfl (fun function _ => length_encodeIndex_pos _) (by omega) ?_
  refine Cuts.listed (by decide) rfl (fun type _ => ?_) (by omega) ?_
  · simp [MemoryType.encode]
  refine Cuts.listed (by decide) rfl (fun item _ => ?_) (by omega) ?_
  · simp [Global.encode, GlobalType.encode]
  refine Cuts.listed (by decide) rfl (fun item _ => ?_) (by omega) ?_
  · simp [Export.encode]
    omega
  exact cuts_code (by omega) (cuts_customs writable.customs (by omega))

/-! ## Gathering -/

theorem foldlM_append {first second : List Section} {draft draft' : Draft} {result : Option Draft}
    (step : first.foldlM Draft.add? draft = some draft')
    (rest : second.foldlM Draft.add? draft' = result) :
    (first ++ second).foldlM Draft.add? draft = result := by
  rw [List.foldlM_append, step]
  exact rest

/-- A list of items is put where there was none; without items there is no section. -/
theorem foldlM_listed {listing : Listing} {encode : β → Bytes} {items : List β}
    (draft : List β → Draft)
    (step : (draft []).add? (.items listing items.length (items.flatMap encode)) =
      some (draft items)) :
    (listedSections listing encode items).foldlM Draft.add? (draft []) = some (draft items) := by
  unfold listedSections
  split
  · next none =>
    rw [List.isEmpty_iff.mp none]
    rfl
  · rw [List.foldlM_cons, step]
    rfl

theorem foldlM_customs (customs : List (String × Bytes)) (draft : Draft) :
    (customs.map fun custom => Section.custom custom.1 custom.2).foldlM Draft.add? draft =
      some { draft with
        content := { draft.content with customs := draft.content.customs ++ customs } } := by
  induction customs generalizing draft with
  | nil => simp
  | cons custom customs hypothesis =>
    rw [List.map_cons, List.foldlM_cons]
    change (List.foldlM Draft.add? _ _) = _
    rw [hypothesis]
    simp

/-- The draft of the parts gathered so far. -/
def gathered (types : List FuncType) (imports : List Import) (functions : List Function)
    (memories : List MemoryType) (globals : List Global) (exports : List Export)
    (bodies : List Body) : Draft where
  content :=
    { types, imports, functions := [], tables := [], memories, globals, exports, start := none,
      elements := [], data := [], customs := [] }
  functionTypes := functions.map (·.type)
  bodies := bodies
  dataCount := none

/-- The sections add up to the parts of the module. -/
theorem IsWritable.gather (writable : program.IsWritable) :
    (sections program).foldlM Draft.add? ⟨empty, [], [], none⟩ =
      some ⟨{ program with functions := [] }, program.functions.map (·.type),
        program.functions.map (·.body), none⟩ := by
  have types : itemsOf? TypeEntry.decode program.types.length
      (program.types.flatMap FuncType.encode) = some (program.types.map (⟨·, false, false⟩)) :=
    itemsOf?_eq_some _ _ _ writable.types
  have runnable : (program.types.map (TypeEntry.mk · false false)).mapM runnableType? =
      some program.types := by
    have all := mapM_map_eq_some (f := runnableType?) (TypeEntry.mk · false false) id
      program.types (fun _ _ => rfl)
    rwa [List.map_id] at all
  have imports := itemsOf?_eq_some _ id _ writable.imports
  have functions := itemsOf?_eq_some Leb128.u32 (·.type) program.functions
    (fun function _ => reads_index function.type)
  have memories := itemsOf?_eq_some _ id _ writable.memories
  have globals := itemsOf?_eq_some _ id program.globals fun item _ => reads_global item
  have exports := itemsOf?_eq_some _ id _ writable.exports
  have bodies : (program.functions.map bodyBytes).mapM Body.decode.whole =
      some (program.functions.map (·.body)) :=
    mapM_map_eq_some _ _ _ fun function mem =>
      (reads_body (writable.functions function mem).code (writable.functions function mem).groups
        (writable.functions function mem).locals).whole
  rw [List.map_id] at imports memories globals exports
  -- One section after another: each is added to a draft that holds the parts before it and nothing
  -- of its own kind.
  refine foldlM_append (foldlM_listed (gathered · [] [] [] [] [] []) ?_) ?_
  · simp only [Draft.add?, types, Option.bind_eq_bind, Option.bind_some, runnable]
    rfl
  refine foldlM_append (foldlM_listed (gathered program.types · [] [] [] [] []) ?_) ?_
  · simp only [Draft.add?, imports, Option.bind_eq_bind, Option.bind_some]
    rfl
  refine foldlM_append (foldlM_listed (gathered program.types program.imports · [] [] [] []) ?_) ?_
  · simp only [Draft.add?, encodeIndex, functions, Option.bind_eq_bind, Option.bind_some]
    rfl
  refine foldlM_append (foldlM_listed
    (gathered program.types program.imports program.functions · [] [] []) ?_) ?_
  · simp only [Draft.add?, memories, Option.bind_eq_bind, Option.bind_some]
    rfl
  refine foldlM_append (foldlM_listed
    (gathered program.types program.imports program.functions program.memories · [] []) ?_) ?_
  · simp only [Draft.add?, globals, Option.bind_eq_bind, Option.bind_some]
    rfl
  refine foldlM_append (foldlM_listed (gathered program.types program.imports program.functions
    program.memories program.globals · []) ?_) ?_
  · simp only [Draft.add?, exports, Option.bind_eq_bind, Option.bind_some]
    rfl
  have code : (if program.functions.isEmpty then []
      else [Section.code (program.functions.map bodyBytes)]).foldlM Draft.add?
        (gathered program.types program.imports program.functions program.memories program.globals
          program.exports []) =
      some (gathered program.types program.imports program.functions program.memories
        program.globals program.exports (program.functions.map (·.body))) := by
    split
    · next none =>
      rw [List.isEmpty_iff.mp none]
      rfl
    · rw [List.foldlM_cons]
      simp only [Draft.add?, gathered, bodies, Option.bind_eq_bind, Option.bind_some]
      rfl
  refine foldlM_append code ((foldlM_customs _ _).trans ?_)
  obtain ⟨_, _, _, _, _, _, _, _, _, _, _⟩ := program
  cases writable.tables
  cases writable.start
  cases writable.elements
  cases writable.data
  rfl

theorem inOrder_sections (program : Module) : inOrder (sections program) = true := by
  have ranks : (sections program).filterMap rank? =
      (if program.types.isEmpty then [] else [1]) ++
        ((if program.imports.isEmpty then [] else [2]) ++
          ((if program.functions.isEmpty then [] else [3]) ++
            ((if program.memories.isEmpty then [] else [5]) ++
              ((if program.globals.isEmpty then [] else [7]) ++
                ((if program.exports.isEmpty then [] else [8]) ++
                  (if program.functions.isEmpty then [] else [12])))))) := by
    have customs : (program.customs.map fun custom =>
        Section.custom custom.1 custom.2).filterMap rank? = [] := by
      rw [List.filterMap_map]
      exact List.filterMap_eq_nil_iff.mpr fun _ _ => rfl
    simp only [sections, listedSections, List.filterMap_append, customs, List.append_nil,
      apply_ite (List.filterMap rank?), List.filterMap_nil, List.filterMap_cons, rank?]
  have ordered : ∀ first second third fourth fifth sixth : Bool,
      let ranks := (if first then [] else [1]) ++ ((if second then [] else [2]) ++
        ((if third then [] else [3]) ++ ((if fourth then [] else [5]) ++
          ((if fifth then [] else [7]) ++ ((if sixth then [] else [8]) ++
            (if third then [] else [12]))))))
      ((ranks.zip ranks.tail).all fun pair => pair.1 < pair.2) = true := by
    decide
  rw [inOrder, ranks]
  exact ordered _ _ _ _ _ _

/-- The written form is cut into the sections of the module. -/
theorem IsWritable.outline (writable : program.IsWritable) :
    ∃ body, Header.decode program.encode = some (⟨1, .module⟩, body) ∧
      Outline.ofBytes program.encode = ⟨sections program, true⟩ := by
  obtain ⟨body, written, short, cuts⟩ := writable.cuts
  have head : Header.decode program.encode = some (⟨1, .module⟩, body) := by
    rw [written]
    rfl
  refine ⟨body, head, ?_⟩
  rw [Outline.ofBytes, head]
  exact cuts _ _ (le_refl _) (by omega)

/-- A module is read back from its written form. -/
theorem IsWritable.decode?_encode (writable : program.IsWritable) :
    decode? program.encode = some program := by
  obtain ⟨body, head, outline⟩ := writable.outline
  have zipped : (program.functions.map (·.type)).zip (program.functions.map (·.body)) =
      program.functions.map fun function => (function.type, function.body) := by
    rw [List.zip_map']
  have rebuilt : (program.functions.map fun function =>
      Function.mk function.type function.body) = program.functions :=
    List.map_id program.functions
  have uses : program.functions.any ((usesData ·.code) ∘ (·.body)) = false :=
    writable.any_usesData
  have kept : ofSections? (sections program) = some program := by
    simp only [ofSections?, inOrder_sections, Bool.not_true, Bool.false_eq_true, if_false,
      Option.bind_eq_bind, writable.gather, Option.bind_some, List.length_map, ne_eq,
      not_true_eq_false, Option.any_none, List.any_map, uses, Bool.and_false, zipped, List.map_map]
    exact congrArg some (congrArg (fun functions => { program with functions }) rebuilt)
  simp only [decode?, head, Option.bind_eq_bind, Option.bind_some, ne_eq, not_true_eq_false,
    if_false, outline, Bool.not_true, Bool.false_eq_true, kept]

end Module

end TableKernels.Wasm
