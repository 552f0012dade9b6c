import TableKernels.Proofs.Wasm.Soundness
import TableKernels.Wasm.Instance

/-!
# Instances of valid modules

A module that is instantiated was checked, and whatever it imports is a function of its host. So the
instance begins with functions and a store of the types that the module declares, and so it is after
the start function.
-/

namespace TableKernels.Wasm

variable {Host : Type} {program : Module} {linker : Linker Host} {host : Host}

/-! ## Items in a row -/

theorem forall₂_of_mapM {α β : Type} {f : α → Option β} {items : List α} {values : List β}
    (mapped : items.mapM f = some values) :
    List.Forall₂ (fun item value => f item = some value) items values := by
  induction items generalizing values with
  | nil =>
    cases mapped
    exact .nil
  | cons item items hypothesis =>
    rw [List.mapM_cons] at mapped
    obtain ⟨value, first, others⟩ := Option.bind_eq_some_iff.mp mapped
    obtain ⟨values, rest, same⟩ := Option.bind_eq_some_iff.mp others
    cases same
    exact .cons first (hypothesis rest)

theorem map_eq_of_forall₂ {α β γ : Type} {R : α → β → Prop} {f : α → γ} {g : β → γ}
    {items : List α} {values : List β} (related : List.Forall₂ R items values)
    (same : ∀ item value, R item value → g value = f item) : values.map g = items.map f := by
  induction related with
  | nil => rfl
  | cons one _ hypothesis => rw [List.map_cons, List.map_cons, same _ _ one, hypothesis]

theorem exists_of_forall₂ {α β : Type} {R : α → β → Prop} {items : List α} {values : List β}
    (related : List.Forall₂ R items values) {value : β} (mem : value ∈ values) :
    ∃ item ∈ items, R item value := by
  induction related with
  | nil => cases mem
  | @cons item first items values one _ hypothesis =>
    rcases List.mem_cons.mp mem with rfl | mem
    · exact ⟨item, List.mem_cons_self, one⟩
    · obtain ⟨other, inside, same⟩ := hypothesis mem
      exact ⟨other, List.mem_cons_of_mem _ inside, same⟩

/-- What each item keeps of a state that carries on is kept by all items in a row. -/
theorem foldlM_maintains {α σ : Type} {place : σ → α → Option σ} (R : σ → σ → Prop)
    (refl : ∀ state, R state state)
    (trans : ∀ {first second third}, R first second → R second third → R first third)
    {items : List α} (keeps : ∀ item ∈ items, ∀ {before after}, place before item = some after →
      R before after) {first last : σ} (placed : items.foldlM place first = some last) :
    R first last := by
  induction items generalizing first with
  | nil =>
    cases placed
    exact refl _
  | cons item items hypothesis =>
    rw [List.foldlM_cons] at placed
    obtain ⟨between, one, others⟩ := Option.bind_eq_some_iff.mp placed
    exact trans (keeps item List.mem_cons_self one)
      (hypothesis (fun item mem => keeps item (List.mem_cons_of_mem _ mem)) others)

/-! ## Instances -/

namespace Module

/-- An instance has the functions, globals and memories that a valid module declares. -/
structure Describes (program : Module) (live : Instance Host) : Prop where
  valid : program.isValid = true
  exports : live.exports = program.exports
  functions : program.functionTypes? = some live.functionTypes
  code : live.program.IsTyped (program.outerScope live.functionTypes)
  store : live.store.IsTyped (program.outerScope live.functionTypes)

/-- What the check of a module asks of its parts. -/
structure Checks (program : Module) (functions : List FuncType) : Prop where
  memories : program.allMemories.all isMemoryValid = true
  globals : program.globals.all (isGlobalValid functions.length) = true
  exports : program.exports.all (program.isExportValid functions.length) = true
  start : program.isStartValid functions = true
  elements : program.elements.all (program.isElementValid functions.length) = true
  functions : program.functions.all (program.isFunctionValid functions) = true

theorem checks_of_isValid {functions : List FuncType} (valid : program.isValid = true)
    (types : program.functionTypes? = some functions) : program.Checks functions := by
  simp only [isValid, types, Bool.and_eq_true] at valid
  obtain ⟨⟨⟨⟨⟨⟨⟨⟨⟨⟨_, memories⟩, _⟩, _⟩, globals⟩, _⟩, exports⟩, start⟩, elements⟩, functions⟩,
    _⟩ := valid
  exact ⟨memories, globals, exports, start, elements, functions⟩

/-! ## Imports -/

theorem link?_eq_some {item : Import} {function : HostFunction Host}
    (linked : program.link? linker item = some function) :
    linker item.moduleName item.name = some function ∧
      ∃ type, item.kind = .func type ∧ program.types[type.toNat]? = some function.type := by
  rw [link?] at linked
  split at linked
  · next type kind =>
    obtain ⟨found, supplied, linked⟩ := Option.bind_eq_some_iff.mp linked
    split at linked
    · next declared =>
      cases linked
      exact ⟨supplied, type, kind, declared⟩
    · cases linked
  · cases linked

/-- The linker supplies a function for every import, of the type that the import declares. -/
abbrev Links (program : Module) (linker : Linker Host) : List Import → List (HostFunction Host) →
    Prop :=
  List.Forall₂ fun item function => program.link? linker item = some function

theorem importedTypes_of_links {items : List Import} {functions : List (HostFunction Host)}
    (links : program.Links linker items functions) :
    (items.filterMapM fun item =>
      match item.kind with
      | .func type => (program.types[type.toNat]?).map some
      | _ => some none) = some (functions.map (·.type)) := by
  induction links with
  | nil => rfl
  | cons linked _ hypothesis =>
    obtain ⟨_, type, kind, declared⟩ := link?_eq_some linked
    rw [List.filterMapM_cons, kind]
    simp only [declared, Option.map_some, Option.bind_eq_bind, Option.bind_some, hypothesis]
    rfl

theorem filterMap_eq_nil_of_links {α : Type} {items : List Import}
    {functions : List (HostFunction Host)} (links : program.Links linker items functions)
    {view : Import → Option α} (skips : ∀ item type, item.kind = .func type → view item = none) :
    items.filterMap view = [] := by
  induction links with
  | nil => rfl
  | cons linked _ hypothesis =>
    obtain ⟨_, type, kind, _⟩ := link?_eq_some linked
    rw [List.filterMap_cons_none (skips _ type kind), hypothesis]

/-! ## Functions -/

theorem type_firstLocals {body : Body} {words : List Word}
    (first : firstLocals? body = some words) :
    words.map Word.type = body.locals.flatMap fun (count, type) =>
      List.replicate count.toNat type := by
  obtain ⟨groups, mapped, same⟩ := Option.bind_eq_some_iff.mp first
  obtain rfl : groups.flatten = words := Option.some.inj same
  have related := forall₂_of_mapM mapped
  have types := map_eq_of_forall₂ (f := fun (group : UInt32 × ValType) =>
    List.replicate group.1.toNat group.2) (g := List.map Word.type) related ?_
  · rw [List.map_flatten, types, List.flatMap_def]
  · rintro ⟨count, type⟩ words filled
    obtain ⟨word, zero, rfl⟩ := Option.map_eq_some_iff.mp filled
    rw [List.map_replicate, Word.type_of_zero? zero]

theorem routine?_eq_some {functions : List FuncType} {function : Function} {routine : Routine}
    (prepared : program.routine? functions function = some routine) :
    program.types[function.type.toNat]? = some routine.type ∧
      firstLocals? function.body = some routine.locals ∧ routine.code = function.body.code := by
  obtain ⟨type, declared, prepared⟩ := Option.bind_eq_some_iff.mp prepared
  obtain ⟨words, first, prepared⟩ := Option.bind_eq_some_iff.mp prepared
  obtain ⟨cells, _, same⟩ := Option.bind_eq_some_iff.mp prepared
  cases same
  exact ⟨declared, first, rfl⟩

/-- A function whose frame is laid out is ready to run. -/
theorem routine?_of_layout {functions : List FuncType} {function : Function} {type : FuncType}
    {words : List Word} {cells : ℕ} (typed : program.types[function.type.toNat]? = some type)
    (locals : firstLocals? function.body = some words)
    (framed : frameSize? ⟨program.types, functions, program.fixedGlobals, program.allMemories,
      type.params.length + Body.localCount function.body.locals, type.results.length⟩
        function.body.code = some cells) :
    program.routine? functions function = some ⟨type, words, function.body.code, cells⟩ := by
  simp only [routine?, typed, locals, framed, Option.bind_eq_bind, Option.bind_some]
  rfl

theorem routine_isTyped {functions : List FuncType} {function : Function} {routine : Routine}
    (valid : program.isFunctionValid functions function = true)
    (prepared : program.routine? functions function = some routine) :
    routine.IsTyped (program.outerScope functions) := by
  obtain ⟨declared, first, code⟩ := routine?_eq_some prepared
  have inside : (program.outerScope functions).inside routine =
      program.scope functions routine.type function.body := by
    simp only [Scope.inside, scope, localTypes, type_firstLocals first]
  rw [isFunctionValid, declared] at valid
  rw [Routine.IsTyped, inside, code]
  exact (Bool.and_eq_true_iff.mp valid).2

/-! ## Stores -/

theorem value?_of_isGlobalValid {count : ℕ} {item : Global} {word : Word}
    (valid : isGlobalValid count item = true) (first : item.value.value? = some word) :
    word.type = item.type.type := by
  simp only [isGlobalValid, Constant.isValid, first, Option.any_some, Bool.and_eq_true,
    decide_eq_true_eq] at valid
  exact valid.2.1

theorem wide_firstMemory {type : MemoryType} {memory : Memory}
    (first : firstMemory? type = some memory) : memory.wide = type.wide := by
  rw [firstMemory?] at first
  split at first
  · cases first
    rfl
  · cases first

/-- The memories of a store that lists them in a row. -/
theorem memoryAt_eq_getElem? {store : Store Host} (memories : List Memory)
    (first : store.memory = memories.head?.getD .none)
    (others : store.others = memories.tail.toArray) (index : UInt32) :
    store.memoryAt index = (memories[index.toNat]?).getD .none := by
  rw [Store.memoryAt]
  split
  · next zero =>
    rw [first, zero, List.head?_eq_getElem?]
    rfl
  · next other =>
    have pos : index.toNat ≠ 0 := fun zero => other (UInt32.toNat_inj.mp zero)
    rw [others, List.getElem?_toArray, List.getElem?_tail, Nat.sub_add_cancel (by omega)]

theorem firstStore?_eq_some {store : Store Host} (first : program.firstStore? host = some store) :
    ∃ memories tables segments, program.memories.mapM firstMemory? = some memories ∧
      program.globals.mapM (fun item => item.value.value?) = some store.globals.toList ∧
      program.tables.mapM firstTable? = some tables ∧
      program.firstSegments? = some segments ∧ store.memory = memories.head?.getD .none ∧
      store.others = memories.tail.toArray ∧ store.tables = tables.toArray ∧
      store.segments = segments ∧ store.host = host := by
  obtain ⟨memories, reserved, first⟩ := Option.bind_eq_some_iff.mp first
  obtain ⟨globals, evaluated, first⟩ := Option.bind_eq_some_iff.mp first
  obtain ⟨tables, filled, first⟩ := Option.bind_eq_some_iff.mp first
  obtain ⟨segments, ready, same⟩ := Option.bind_eq_some_iff.mp first
  cases same
  exact ⟨memories, tables, segments, reserved, evaluated, filled, ready, rfl, rfl, rfl, rfl, rfl⟩

theorem firstTable_isTyped {type : TableType} {table : Table}
    (first : firstTable? type = some table) : table.IsTyped type := by
  obtain ⟨word, null, rfl⟩ := Option.map_eq_some_iff.mp first
  refine ⟨rfl, fun entry member => ?_⟩
  rw [(Array.mem_replicate.mp member).2]
  exact Word.type_of_null? null

/-- The references of a valid segment are of the type of the segment. -/
theorem type_of_words? {count : ℕ} {segment : ElementSegment} {words : List Word}
    (valid : program.isElementValid count segment = true) (listed : segment.words? = some words) :
    ∀ word ∈ words, word.type = .ref segment.type := by
  intro word member
  rw [ElementSegment.words?] at listed
  split at listed
  · cases listed
    cases member
  · obtain ⟨item, mem, evaluated⟩ := exists_of_forall₂ (forall₂_of_mapM listed) member
    have checked := List.all_eq_true.mp (Bool.and_eq_true_iff.mp valid).1 item mem
    simpa only [Constant.isValid, evaluated, Option.any_some, Bool.and_eq_true,
      decide_eq_true_eq] using (Bool.and_eq_true_iff.mp checked).1

theorem mem_of_mem_leftOver {α : Type} {target : Option SegmentTarget} {content : List α}
    {item : α} (member : item ∈ leftOver target content) : item ∈ content := by
  rw [leftOver] at member
  split at member
  · cases member
  · exact member

theorem firstSegments_isTyped {count : ℕ} {segments : Segments}
    (valid : program.elements.all (program.isElementValid count) = true)
    (first : program.firstSegments? = some segments) {index : ℕ} {type : RefType}
    (found : (program.elements.map (·.type))[index]? = some type) :
    ∀ word ∈ (segments.elements[index]?).getD [], word.type = .ref type := by
  obtain ⟨elements, listed, same⟩ := Option.bind_eq_some_iff.mp first
  cases same
  rw [List.getElem?_map] at found
  obtain ⟨segment, declared, rfl⟩ := Option.map_eq_some_iff.mp found
  obtain ⟨inside, rfl⟩ := List.getElem?_eq_some_iff.mp declared
  have related := forall₂_of_mapM listed
  have inside' : index < elements.length := related.length_eq ▸ inside
  obtain ⟨words, held, left⟩ := Option.map_eq_some_iff.mp (related.get inside inside')
  intro word member
  rw [List.getElem?_toArray, List.getElem?_eq_getElem inside', Option.getD_some,
    ← List.get_eq_getElem (i := ⟨index, inside'⟩), ← left] at member
  exact type_of_words? (List.all_eq_true.mp valid _ (List.getElem_mem inside)) held word
    (mem_of_mem_leftOver member)

theorem firstStore_isTyped {functions : List FuncType} {count : ℕ} {store : Store Host}
    {linked : List (HostFunction Host)} (links : program.Links linker program.imports linked)
    (globals : program.globals.all (isGlobalValid count) = true)
    (elements : program.elements.all (program.isElementValid count) = true)
    (first : program.firstStore? host = some store) :
    store.IsTyped (program.outerScope functions) := by
  obtain ⟨memories, tables, segments, reserved, evaluated, filled, ready, memory, others, listed,
    ready', _⟩ := firstStore?_eq_some first
  have noGlobals : program.importedGlobals = [] :=
    filterMap_eq_nil_of_links links fun item type kind => by rw [kind]
  have noMemories : program.importedMemories = [] :=
    filterMap_eq_nil_of_links links fun item type kind => by rw [kind]
  have noTables : program.importedTables = [] :=
    filterMap_eq_nil_of_links links fun item type kind => by rw [kind]
  refine ⟨?globals, fun index type found => ?memories, fun index type found => ?tables,
    fun index type found => ?elements⟩
  case globals =>
    have related := (List.forall₂_and_left _ _).mpr
      ⟨List.all_eq_true.mp globals, forall₂_of_mapM evaluated⟩
    simp only [outerScope, globalTypes, noGlobals, List.nil_append, List.map_map]
    exact map_eq_of_forall₂ related fun _ _ both => value?_of_isGlobalValid both.1 both.2
  case memories =>
    rw [outerScope, allMemories, noMemories, List.nil_append] at found
    rw [memoryAt_eq_getElem? memories memory others]
    obtain ⟨inside, rfl⟩ := List.getElem?_eq_some_iff.mp found
    have related := forall₂_of_mapM reserved
    have inside' : index.toNat < memories.length := related.length_eq ▸ inside
    rw [List.getElem?_eq_getElem inside', Option.getD_some]
    exact wide_firstMemory (related.get inside inside')
  case tables =>
    rw [outerScope, allTables, noTables, List.nil_append] at found
    obtain ⟨inside, rfl⟩ := List.getElem?_eq_some_iff.mp found
    have related := forall₂_of_mapM filled
    have inside' : index.toNat < tables.length := related.length_eq ▸ inside
    rw [Store.tableAt, listed, List.getElem?_toArray, List.getElem?_eq_getElem inside',
      Option.getD_some]
    exact firstTable_isTyped (related.get inside inside')
  case elements =>
    rw [Store.elementsAt, ready']
    exact firstSegments_isTyped elements ready found

/-- A data segment replaces bytes, if anything. -/
theorem placeData?_eq_some {store placed : Store Host} {segment : DataSegment}
    (fits : placeData? store segment = some placed) :
    placed = store ∨ ∃ index base content,
      placed = store.changeBytes index fun bytes => overwrite bytes base content := by
  rw [placeData?] at fits
  split at fits
  · exact .inl (Option.some.inj fits).symm
  · obtain ⟨word, _, fits⟩ := Option.bind_eq_some_iff.mp fits
    obtain ⟨base, _, fits⟩ := Option.bind_eq_some_iff.mp fits
    split at fits
    · exact .inr ⟨_, _, _, (Option.some.inj fits).symm⟩
    · cases fits

/-- A segment of references replaces entries of the table it goes to, if anything. -/
theorem placeElements?_eq_some {store placed : Store Host} {segment : ElementSegment}
    (fits : placeElements? store segment = some placed) :
    placed = store ∨ ∃ target words base, segment.target = some target ∧
      segment.words? = some words ∧
      placed = store.changeEntries target.index fun entries =>
        Table.overwriteFrom entries base words := by
  rw [placeElements?] at fits
  split at fits
  · exact .inl (Option.some.inj fits).symm
  · next target goes =>
    obtain ⟨word, _, fits⟩ := Option.bind_eq_some_iff.mp fits
    obtain ⟨base, _, fits⟩ := Option.bind_eq_some_iff.mp fits
    obtain ⟨words, held, fits⟩ := Option.bind_eq_some_iff.mp fits
    split at fits
    · exact .inr ⟨target, words, base, goes, held, (Option.some.inj fits).symm⟩
    · cases fits

/-- The store of a module before its start function: the first one after all segments. -/
def Places (program : Module) (first last : Store Host) : Prop :=
  ∃ filled, program.elements.foldlM placeElements? first = some filled ∧
    program.data.foldlM placeData? filled = some last

/-- What replaced bytes and replaced tables keep is kept when all segments are placed. -/
theorem Places.maintains {first last : Store Host} (places : program.Places first last)
    (R : Store Host → Store Host → Prop) (refl : ∀ store, R store store)
    (trans : ∀ {first second third}, R first second → R second third → R first third)
    (bytes : ∀ (store : Store Host) (index : UInt32) (base : ℕ) (content : Bytes),
      R store (store.changeBytes index fun bytes => overwrite bytes base content))
    (entries : ∀ (store : Store Host) (index : UInt32) (change : Array Word → Array Word),
      R store (store.changeEntries index change)) : R first last := by
  obtain ⟨filled, elements, data⟩ := places
  refine trans (foldlM_maintains R refl trans (fun _ _ _ _ fits => ?_) elements)
    (foldlM_maintains R refl trans (fun _ _ _ _ fits => ?_) data)
  · rcases placeElements?_eq_some fits with rfl | ⟨_, _, _, _, _, rfl⟩
    · exact refl _
    · exact entries _ _ _
  · rcases placeData?_eq_some fits with rfl | ⟨_, _, _, rfl⟩
    · exact refl _
    · exact bytes _ _ _ _

theorem placeElements_isTyped {functions : List FuncType} {count : ℕ} {segment : ElementSegment}
    {store placed : Store Host} (valid : program.isElementValid count segment = true)
    (typed : store.IsTyped (program.outerScope functions))
    (fits : placeElements? store segment = some placed) :
    placed.IsTyped (program.outerScope functions) := by
  rcases placeElements?_eq_some fits with rfl | ⟨target, words, base, goes, held, rfl⟩
  · exact typed
  · have fitting := (Bool.and_eq_true_iff.mp valid).2
    rw [goes, Option.all_some] at fitting
    obtain ⟨type, found, checked⟩ := (Option.any_eq_true _ _).mp fitting
    have alike : type.entries = segment.type :=
      of_decide_eq_true (Bool.and_eq_true_iff.mp checked).1
    refine typed.changeEntries found fun word member => ?_
    rcases Table.mem_overwriteFrom member with before | new
    · exact (typed.tables target.index type found).entries word before
    · rw [alike]
      exact type_of_words? valid held word new

theorem Places.isTyped {functions : List FuncType} {count : ℕ} {first last : Store Host}
    (places : program.Places first last)
    (valid : program.elements.all (program.isElementValid count) = true)
    (typed : first.IsTyped (program.outerScope functions)) :
    last.IsTyped (program.outerScope functions) := by
  obtain ⟨filled, elements, data⟩ := places
  have keeps := foldlM_maintains
    (fun before after => before.IsTyped (program.outerScope functions) →
      after.IsTyped (program.outerScope functions)) (fun _ => id)
    (fun first second => second ∘ first)
    (fun segment mem _ _ fits typed =>
      placeElements_isTyped (List.all_eq_true.mp valid segment mem) typed fits) elements
  refine foldlM_maintains
    (fun before after => before.IsTyped (program.outerScope functions) →
      after.IsTyped (program.outerScope functions)) (fun _ => id)
    (fun first second => second ∘ first) (fun _ _ _ _ fits typed => ?_) data (keeps typed)
  rcases placeData?_eq_some fits with rfl | ⟨_, _, _, rfl⟩
  · exact typed
  · exact typed.changeBytes _ _

/-! ## Loading and starting -/

theorem load?_eq_some {live : Instance Host} (loaded : program.load? linker host = some live) :
    program.functionTypes? = some live.functionTypes ∧ live.exports = program.exports ∧
      live.program.types = program.types ∧
      program.Links linker program.imports live.program.imports.toList ∧
      List.Forall₂ (fun function routine =>
        program.routine? live.functionTypes function = some routine) program.functions
          live.program.routines.toList ∧
      ∃ first, program.firstStore? host = some first ∧ program.Places first live.store := by
  obtain ⟨functions, types, loaded⟩ := Option.bind_eq_some_iff.mp loaded
  obtain ⟨imports, linked, loaded⟩ := Option.bind_eq_some_iff.mp loaded
  obtain ⟨routines, prepared, loaded⟩ := Option.bind_eq_some_iff.mp loaded
  obtain ⟨first, began, loaded⟩ := Option.bind_eq_some_iff.mp loaded
  obtain ⟨filled, elements, loaded⟩ := Option.bind_eq_some_iff.mp loaded
  obtain ⟨store, placed, same⟩ := Option.bind_eq_some_iff.mp loaded
  cases same
  exact ⟨types, rfl, rfl, forall₂_of_mapM linked, forall₂_of_mapM prepared, first, began, filled,
    elements, placed⟩

theorem functionTypes_eq {functions : List FuncType} {imports : List (HostFunction Host)}
    {routines : List Routine} (types : program.functionTypes? = some functions)
    (links : program.Links linker program.imports imports)
    (prepared : List.Forall₂ (fun function routine =>
      program.routine? functions function = some routine) program.functions routines) :
    functions = imports.map (·.type) ++ routines.map (·.type) := by
  obtain ⟨imported, same, types⟩ := Option.bind_eq_some_iff.mp types
  obtain ⟨defined, mapped, whole⟩ := Option.bind_eq_some_iff.mp types
  obtain rfl : imported ++ defined = functions := Option.some.inj whole
  obtain rfl : imported = imports.map (·.type) :=
    Option.some.inj (same.symm.trans (importedTypes_of_links links))
  have declared := map_eq_of_forall₂ (forall₂_of_mapM mapped) (g := some)
    (f := fun function => program.types[function.type.toNat]?) fun _ _ same => same.symm
  have carried := map_eq_of_forall₂ prepared (g := fun routine => some routine.type)
    (f := fun function => program.types[function.type.toNat]?) fun _ _ same =>
      (routine?_eq_some same).1.symm
  have types : defined.map some = (routines.map (·.type)).map some := by
    rw [declared, ← carried, List.map_map]
    rfl
  rw [List.map_injective_iff.mpr (Option.some_injective _) types]

/-- A valid module describes what is loaded of it. -/
theorem describes_of_load? {live : Instance Host}
    (typed : ∀ moduleName name function, linker moduleName name = some function →
      function.IsTyped)
    (valid : program.isValid = true) (loaded : program.load? linker host = some live) :
    program.Describes live := by
  obtain ⟨types, exports, declared, links, prepared, first, began, places⟩ := load?_eq_some loaded
  have checks := checks_of_isValid valid types
  refine ⟨valid, exports, types, ⟨declared, functionTypes_eq types links prepared, ?_, ?_⟩,
    places.isTyped checks.elements
      (firstStore_isTyped links checks.globals checks.elements began)⟩
  · intro function mem
    obtain ⟨item, _, linked⟩ := exists_of_forall₂ links (Array.mem_toList_iff.mpr mem)
    exact typed _ _ _ (link?_eq_some linked).1
  · intro routine mem
    obtain ⟨function, defined, same⟩ :=
      exists_of_forall₂ prepared (Array.mem_toList_iff.mpr mem)
    exact routine_isTyped (List.all_eq_true.mp checks.functions function defined) same

/-- What is instantiated was checked and loaded, and its start function left it as it is. -/
theorem instantiate?_eq_some {live : Instance Host}
    (instantiated : program.instantiate? linker host = some live) :
    program.isValid = true ∧ ∃ loaded, program.load? linker host = some loaded ∧
      (live = loaded ∨ ∃ index results store, program.start = some index ∧
        loaded.program.invoke index [] loaded.store = .done results store ∧
          live = { loaded with store }) := by
  rw [instantiate?] at instantiated
  split at instantiated
  · cases instantiated
  · next checked =>
    have valid : program.isValid = true := by simpa using checked
    obtain ⟨loaded, load, instantiated⟩ := Option.bind_eq_some_iff.mp instantiated
    refine ⟨valid, loaded, load, ?_⟩
    split at instantiated
    · exact .inl (Option.some.inj instantiated).symm
    · next index start =>
      split at instantiated
      · next results store ends =>
        exact .inr ⟨index, results, store, start, ends, (Option.some.inj instantiated).symm⟩
      · cases instantiated
      · cases instantiated

/-- The functions that an instance imports are those that the linker supplies for its imports. -/
theorem links_of_instantiate? {live : Instance Host}
    (instantiated : program.instantiate? linker host = some live) :
    program.Links linker program.imports live.program.imports.toList := by
  obtain ⟨_, loaded, load, same⟩ := instantiate?_eq_some instantiated
  obtain ⟨_, _, _, links, _⟩ := load?_eq_some load
  rcases same with rfl | ⟨_, _, _, _, _, rfl⟩ <;> exact links

theorem describes_of_instantiate? {live : Instance Host}
    (typed : ∀ moduleName name function, linker moduleName name = some function →
      function.IsTyped)
    (instantiated : program.instantiate? linker host = some live) : program.Describes live := by
  obtain ⟨valid, loaded, load, same⟩ := instantiate?_eq_some instantiated
  have describes := describes_of_load? typed valid load
  rcases same with rfl | ⟨index, results, store, start, ends, rfl⟩
  · exact describes
  · have started := (checks_of_isValid valid describes.functions).start
    have found : (program.outerScope loaded.functionTypes).functions[index.toNat]? =
        some ⟨[], []⟩ := by
      rw [isStartValid, start] at started
      exact beq_iff_eq.mp started
    have leaves := describes.code.invoke found [] rfl describes.store
    rw [ends] at leaves
    exact ⟨valid, describes.exports, describes.functions, describes.code, leaves⟩

/-! ## The host of an instance -/

/-- The start function does to the host what the functions of the host keep. -/
theorem host_of_instantiate? {live : Instance Host} {R : Host → Host → Prop}
    (instantiated : program.instantiate? linker host = some live)
    (keeps : live.program.Keeps R) : R host live.store.host := by
  obtain ⟨_, loaded, load, same⟩ := instantiate?_eq_some instantiated
  obtain ⟨_, _, _, _, _, first, began, places⟩ := load?_eq_some load
  obtain ⟨_, _, _, _, _, _, _, _, _, _, _, supplied⟩ := firstStore?_eq_some began
  have placed := places.maintains (fun before after => before.host = after.host) (fun _ => rfl)
    Eq.trans (fun store _ _ _ => (store.host_changeBytes _ _).symm) fun _ _ _ => rfl
  have begins : loaded.store.host = host := placed.symm.trans supplied
  rcases same with rfl | ⟨index, results, store, _, ends, rfl⟩
  · rw [begins]
    exact keeps.refl _
  · have kept := Program.invoke_leaves keeps index [] loaded.store
    rw [ends, begins] at kept
    exact kept

/-! ## Exported globals -/

end Module

end TableKernels.Wasm
