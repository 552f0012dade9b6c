import TableKernels.Inspection
import TableKernels.Proofs.Wasm.Reading.Module

/-!
# What inspection reads

Inspection reads of a written module what the module lists, without the values of its globals and
the code of its functions, which it passes over.
-/

namespace TableKernels

open Wasm

/-! ## Passing over constants -/

namespace Wasm

theorem reads_skipExpression {first : UInt8} {parts : Bytes} (other : first ≠ endCode)
    (skips : Reads (skipImmediates first) parts ()) :
    Reads skipExpression (first :: (parts ++ [endCode])) () := by
  have finish : ∀ fuel, Reads (skipExpressionFrom (fuel + 1)) [endCode] () := fun _ _ => rfl
  have next : ∀ fuel, Reads (if first == endCode then return () else do
      skipImmediates first
      skipExpressionFrom (fuel + 1)) (parts ++ [endCode]) () := by
    intro fuel
    rw [if_neg (by simpa using other)]
    exact skips.bind (finish fuel)
  intro rest
  exact (Reads.byte first).bind (next _) rest

/-- A constant of 64 bits for a number is passed over. -/
theorem skips_f64 (bits : UInt64) :
    Reads skipExpression (Constant.ofWord (.f64 bits)).encode () := by
  have length := LittleEndian.length_encode 8 bits
  have skips : Reads (skipImmediates 0x44) (LittleEndian.encode 8 bits) () := by
    have taken := Reads.take (LittleEndian.encode 8 bits)
    rw [length] at taken
    have part : Reads (Immediate.skip (.bytes 8)) (LittleEndian.encode 8 bits ++ []) () :=
      taken.bind (Reads.pure ())
    have parts : Reads (Immediate.skipAll [.bytes 8]) _ () := part.bind (Reads.pure ())
    rwa [List.append_nil, List.append_nil] at parts
  exact reads_skipExpression (by decide) skips

/-- A constant of 64 bits for an integer is passed over. -/
theorem skips_i64 (value : UInt64) :
    Reads skipExpression (Constant.ofWord (.i64 value)).encode () := by
  have skips : Reads (skipImmediates 0x42) (Leb128.ofInt value.toInt64.toInt) () := by
    have taken := Leb128.reads_integer 64 value.toInt64.toInt (by decide)
      value.toInt64.le_toInt value.toInt64.toInt_lt
    have part : Reads (Immediate.skip (.integer 64)) (Leb128.ofInt value.toInt64.toInt ++ []) () :=
      taken.bind (Reads.pure ())
    have parts : Reads (Immediate.skipAll [.integer 64]) _ () := part.bind (Reads.pure ())
    rwa [List.append_nil, List.append_nil] at parts
  have written : (Constant.ofWord (.i64 value)).encode =
      0x42 :: (Leb128.ofInt value.toInt64.toInt ++ [endCode]) := by
    simp [Constant.encode, Constant.ofWord, ConstantStep.encode, Op.encode]
  rw [written]
  exact reads_skipExpression (by decide) skips

end Wasm

namespace Survey

variable {α β : Type} {program : Module}

theorem reads_decodeGlobal {item : Global} (skips : Reads skipExpression item.value.encode ()) :
    Reads decodeGlobal item.encode item.type := by
  have rest : Reads (do skipExpression; return item.type) (item.value.encode ++ []) item.type :=
    skips.bind (Reads.pure item.type)
  rw [List.append_nil] at rest
  exact (reads_globalType item.type).bind rest

theorem addItems_eq {decoder : Decoder α} {add : Survey → α → Except InspectFault Survey}
    {encode : β → Bytes} {view : β → α} {items : List β}
    (each : ∀ item ∈ items, Reads decoder (encode item) (view item)) (survey : Survey) :
    addItems decoder add items.length (items.flatMap encode) survey =
      (items.map view).foldlM add survey := by
  induction items generalizing survey with
  | nil => rfl
  | cons item items hypothesis =>
    rw [List.flatMap_cons, List.length_cons, addItems, each item (List.mem_cons_self ..),
      List.map_cons, List.foldlM_cons]
    simp only
    cases add survey (view item) with
    | ok next => exact hypothesis (fun other mem => each other (List.mem_cons_of_mem _ mem)) next
    | error fault => rfl

section Listed

variable {listing : Listing} {decoder : Decoder α} {encode : β → Bytes} {view : β → α}
  {items : List β} {add : Survey → α → Except InspectFault Survey}

theorem foldlM_listed (each : ∀ item ∈ items, Reads decoder (encode item) (view item))
    (adds : ∀ survey count content, addSection survey (.items listing count content) =
      addItems decoder add count content survey) (survey : Survey) :
    (listedSections listing encode items).foldlM addSection survey =
      (items.map view).foldlM add survey := by
  unfold listedSections
  split
  · next none =>
    rw [List.isEmpty_iff.mp none]
    rfl
  · rw [List.foldlM_cons, adds, addItems_eq each]
    cases (items.map view).foldlM add survey <;> rfl

/-- Items that are each put at the end of one list of a survey. -/
theorem foldlM_pushed {γ : Type} (put : Array γ → Survey) (pick : α → γ)
    (step : ∀ array item, add (put array) item = .ok (put (array.push (pick item))))
    (items : List α) (array : Array γ) :
    items.foldlM add (put array) = .ok (put (array ++ (items.map pick).toArray)) := by
  induction items generalizing array with
  | nil =>
    rw [List.map_nil, Array.append_empty]
    rfl
  | cons item items hypothesis =>
    have pushed : array.push (pick item) ++ (items.map pick).toArray =
        array ++ ((item :: items).map pick).toArray := by simp
    rw [List.foldlM_cons, step, ← pushed]
    exact hypothesis _

end Listed

/-- What inspection learns of a module from its lists. -/
def ofProgram (program : Module) : Except InspectFault Survey := do
  let survey ← program.imports.foldlM addImport { empty with types := program.types.toArray }
  let survey ← program.memories.foldlM addMemory
    { survey with functions := survey.functions ++ (program.functions.map (·.type)).toArray }
  pure { survey with
    globals := survey.globals ++ (program.globals.map (·.type)).toArray
    exports := survey.exports ++ program.exports.toArray }

section Sections

variable (survey : Survey)

theorem foldlM_types (writable : program.IsWritable) :
    (listedSections .types FuncType.encode program.types).foldlM addSection empty =
      pure { empty with types := program.types.toArray } := by
  have read := foldlM_listed writable.types (fun _ _ _ => rfl : ∀ survey count content,
    addSection survey (.items .types count content) = _) empty
  refine (read.trans (foldlM_pushed (fun types => { empty with types }) (·.type)
    (fun _ _ => rfl) _ #[])).trans ?_
  rw [List.map_map, Array.empty_append]
  exact congrArg (fun types => Except.ok { empty with types := List.toArray types })
    (List.map_id program.types)

theorem foldlM_imports (writable : program.IsWritable) :
    (listedSections .imports Import.encode program.imports).foldlM addSection survey =
      program.imports.foldlM addImport survey := by
  have each : ∀ item ∈ program.imports, Reads Import.decode item.encode (id item) :=
    writable.imports
  have read := foldlM_listed each (fun _ _ _ => rfl : ∀ survey count content,
    addSection survey (.items .imports count content) = _) survey
  rwa [List.map_id] at read

theorem foldlM_functions (program : Module) :
    (listedSections .functions (fun function => encodeIndex function.type)
      program.functions).foldlM addSection survey =
        pure { survey with
          functions := survey.functions ++ (program.functions.map (·.type)).toArray } := by
  have each : ∀ function ∈ program.functions,
      Reads Leb128.u32 (encodeIndex function.type) function.type :=
    fun function _ => reads_index function.type
  have read := foldlM_listed each (fun _ _ _ => rfl : ∀ survey count content,
    addSection survey (.items .functions count content) = _) survey
  refine (read.trans (foldlM_pushed (fun functions => { survey with functions }) id
    (fun _ _ => rfl) _ survey.functions)).trans ?_
  rw [List.map_id]
  rfl

theorem foldlM_memories (writable : program.IsWritable) :
    (listedSections .memories MemoryType.encode program.memories).foldlM addSection survey =
      program.memories.foldlM addMemory survey := by
  have each : ∀ type ∈ program.memories, Reads MemoryType.decode type.encode (id type) :=
    writable.memories
  have read := foldlM_listed each (fun _ _ _ => rfl : ∀ survey count content,
    addSection survey (.items .memories count content) = _) survey
  rwa [List.map_id] at read

theorem foldlM_globals
    (skips : ∀ item ∈ program.globals, Reads skipExpression item.value.encode ()) :
    (listedSections .globals Global.encode program.globals).foldlM addSection survey =
      pure { survey with
        globals := survey.globals ++ (program.globals.map (·.type)).toArray } := by
  have each : ∀ item ∈ program.globals, Reads decodeGlobal item.encode item.type :=
    fun item mem => reads_decodeGlobal (skips item mem)
  have read := foldlM_listed each (fun _ _ _ => rfl : ∀ survey count content,
    addSection survey (.items .globals count content) = _) survey
  refine (read.trans (foldlM_pushed (fun globals => { survey with globals }) id
    (fun _ _ => rfl) _ survey.globals)).trans ?_
  rw [List.map_id]
  rfl

theorem foldlM_exports (writable : program.IsWritable) :
    (listedSections .exports Export.encode program.exports).foldlM addSection survey =
      pure { survey with exports := survey.exports ++ program.exports.toArray } := by
  have each : ∀ item ∈ program.exports, Reads Export.decode item.encode (id item) :=
    writable.exports
  have read := foldlM_listed each (fun _ _ _ => rfl : ∀ survey count content,
    addSection survey (.items .exports count content) = _) survey
  rw [List.map_id] at read
  refine (read.trans (foldlM_pushed (fun exports => { survey with exports }) id
    (fun _ _ => rfl) _ survey.exports)).trans ?_
  rw [List.map_id]
  rfl

theorem foldlM_code (program : Module) :
    (if program.functions.isEmpty then []
      else [Section.code (program.functions.map bodyBytes)]).foldlM addSection survey =
        pure survey := by
  split <;> rfl

theorem foldlM_customs (customs : List (String × Bytes)) :
    (customs.map fun custom => Section.custom custom.1 custom.2).foldlM addSection survey =
      pure survey := by
  induction customs with
  | nil => rfl
  | cons custom customs hypothesis => exact hypothesis

end Sections

/-- The sections of a module are read as its lists. -/
theorem ofOutline_sections (writable : program.IsWritable)
    (skips : ∀ item ∈ program.globals, Reads skipExpression item.value.encode ()) :
    ofOutline ⟨Module.sections program, true⟩ = ofProgram program := by
  simp only [ofOutline, ofProgram, Module.sections, List.foldlM_append, foldlM_types writable,
    foldlM_imports _ writable, foldlM_functions, foldlM_memories _ writable,
    foldlM_globals _ skips, foldlM_exports _ writable, foldlM_code, foldlM_customs, pure_bind,
    bind_assoc, if_true]

end Survey

end TableKernels
