import TableKernels.Inspection
import TableKernels.Proofs.Json.Constant
import TableKernels.Proofs.Json.Whole

/-!
# The boundary types come back

What crosses the boundary of a module comes back from its text as it was: reports on modules and on
traps with any strings and lists in them, and integers with their types. A manifest is the one part
with a number that is not an integer. A small whole constant comes back, and one that is not finite
is written as null, where every reader wants a number and refuses the text.
-/

namespace TableKernels

open Json Compiled

/-! ## Scalars -/

namespace Scalar

theorem nextPart_cons {first : Bool} {part : Part} {tree : Json}
    {members : List (String × Json)} {text : List Char}
    (spells : SpellsMembers first ((part.name, tree) :: members) text) :
    ∃ middle body others, IsBlanks middle ∧ Spells tree body ∧ SpellsMembers false members others ∧
      ∀ rest, nextPart first (text ++ rest) =
        .ok (some part, middle ++ ':' :: (body ++ (others ++ rest))) := by
  obtain ⟨middle, body, others, colon, value, more, next⟩ := spells.nextName_cons
  refine ⟨middle, body, others, colon, value, more, fun rest => ?_⟩
  refine (Reader.bind_of_ok (next rest)).trans ?_
  cases part <;> rfl

theorem close_done {scalar : Scalar} {text : List Char} (spells : SpellsMembers false [] text)
    (rest : List Char) : close scalar (text ++ rest) = .ok (scalar, rest) := by
  cases spells with
  | @done _ lead blanks =>
    have last : nextPart false (lead ++ '\x7d' :: rest) = .ok (none, '\x7d' :: rest) :=
      Reader.bind_of_ok (nextName_done false blanks)
    rw [List.append_assoc, List.singleton_append]
    exact Reader.bind_of_ok last

/-- A scalar is taken for what its type makes of its value. -/
theorem takes_codec {scalar : Scalar} {result : Except Fault Scalar}
    (takes : Takes (readValue scalar.type) scalar.valueTree result) :
    Takes codec.read (codec.write scalar) result := by
  intro text rest spells follows
  cases spells with
  | token blanks written => cases written
  | @object _ lead text blanks parts =>
    -- the type, and then the value
    obtain ⟨_, _, _, typeColon, typed, valuePart, typeNext⟩ := nextPart_cons parts
    obtain ⟨_, _, others, valueColon, valued, done, valueNext⟩ := nextPart_cons valuePart
    have known : Takes ScalarType.codec.read (ScalarType.codec.write scalar.type)
        (.ok scalar.type) :=
      takes_enumerated (by cases scalar <;> rfl)
    have type := known _ (_ ++ rest) typed valuePart.follows
    have value := takes _ (others ++ rest) valued done.follows
    change read _ = _
    rw [read, List.append_assoc, List.cons_append, skipBlanks_lead blanks (by decide)]
    refine (Reader.bind_of_ok (typeNext rest)).trans ?_
    refine (Reader.bind_of_ok (colon_passed typeColon _)).trans ?_
    refine (Reader.bind_of_ok type).trans ?_
    refine (Reader.bind_of_ok (valueNext rest)).trans ?_
    refine (Reader.bind_of_ok (colon_passed valueColon _)).trans ?_
    change Reader.bind (readValue scalar.type) _ _ = _
    rw [Reader.bind, value]
    cases result with
    | error fault => rfl
    | ok scalar => exact close_done done rest

theorem takes_integral {scalar : Scalar} (integral : scalar.type ≠ .f64) :
    Takes codec.read (codec.write scalar) (.ok scalar) := by
  cases scalar with
  | i32 value => exact takes_codec (takes_map Scalar.i32 (takes_int32 value))
  | i64 value => exact takes_codec (takes_map Scalar.i64 (takes_int64 value))
  | f64 value => exact absurd rfl integral

end Scalar

/-! ## Traps -/

theorem Abort.takes_codec (abort : Abort) : Takes codec.read (codec.write abort) (.ok abort) := by
  have read : Takes codec.read (codec.write abort) _ := takes_mapped
    (.field (takes_int32 abort.code) (.field (takes_int32 abort.file)
      (.field (takes_int32 abort.line) (.field (takes_int32 abort.column) .done)))) (by decide)
  exact read

theorem TrapReport.takes_codec (report : TrapReport) :
    Takes codec.read (codec.write report) (.ok report) := by
  have abort : Takes (Codec.optional Abort.codec).read
      ((Codec.optional Abort.codec).write report.abort) (.ok report.abort) :=
    takes_optional (fun abort _ => abort.takes_codec) fun _ _ => rfl
  have read : Takes codec.read (codec.write report) _ :=
    takes_mapped (.field abort (.field (takes_string report.message) .done)) (by decide)
  exact read

/-! ## Modules -/

theorem Signature.takes_codec (signature : Signature) :
    Takes codec.read (codec.write signature) (.ok signature) := by
  have names (list : List String) :
      Takes (Codec.list .string).read ((Codec.list .string).write list) (.ok list) :=
    takes_list fun name _ => takes_string name
  have read : Takes codec.read (codec.write signature) _ :=
    takes_mapped (.field (names signature.params) (.field (names signature.results) .done))
      (by decide)
  exact read

theorem ImportReport.takes_codec (report : ImportReport) :
    Takes codec.read (codec.write report) (.ok report) := by
  have read : Takes codec.read (codec.write report) _ := takes_mapped
    (.field (takes_string report.moduleName) (.field (takes_string report.name)
      (.field report.signature.takes_codec .done))) (by decide)
  exact read

theorem FunctionReport.takes_codec (report : FunctionReport) :
    Takes codec.read (codec.write report) (.ok report) := by
  have read : Takes codec.read (codec.write report) _ := takes_mapped
    (.field (takes_string report.name) (.field report.signature.takes_codec .done)) (by decide)
  exact read

theorem GlobalReport.takes_codec (report : GlobalReport) :
    Takes codec.read (codec.write report) (.ok report) := by
  have read : Takes codec.read (codec.write report) _ := takes_mapped
    (.field (takes_string report.name) (.field (takes_string report.type)
      (.field (takes_boolean report.isMutable) .done))) (by decide)
  exact read

theorem MemoryBounds.takes_codec (bounds : MemoryBounds) :
    Takes codec.read (codec.write bounds) (.ok bounds) := by
  have max : Takes (Codec.optional (.uint64 "u64")).read
      ((Codec.optional (.uint64 "u64")).write bounds.max) (.ok bounds.max) :=
    takes_optional (fun limit _ => takes_uint64 _ limit) fun _ _ => rfl
  have read : Takes codec.read (codec.write bounds) _ :=
    takes_mapped (.field (takes_uint64 _ bounds.min) (.field max .done)) (by decide)
  exact read

/-- A report on a module is taken for itself, but for its manifest. -/
theorem ModuleReport.takes_codec {report : ModuleReport}
    {manifest : Except Fault (Option Manifest)}
    (takes : Takes (Codec.optional Manifest.codec).read
      ((Codec.optional Manifest.codec).write report.manifest) manifest) :
    Takes codec.read (codec.write report)
      (manifest.map ({ report with manifest := · })) := by
  have imports : Takes (Codec.list ImportReport.codec).read
      ((Codec.list ImportReport.codec).write report.imports) (.ok report.imports) :=
    takes_list fun item _ => item.takes_codec
  have functions : Takes (Codec.list FunctionReport.codec).read
      ((Codec.list FunctionReport.codec).write report.functions) (.ok report.functions) :=
    takes_list fun item _ => item.takes_codec
  have globals : Takes (Codec.list GlobalReport.codec).read
      ((Codec.list GlobalReport.codec).write report.globals) (.ok report.globals) :=
    takes_list fun item _ => item.takes_codec
  have memory : Takes (Codec.optional MemoryBounds.codec).read
      ((Codec.optional MemoryBounds.codec).write report.memory) (.ok report.memory) :=
    takes_optional (fun bounds _ => bounds.takes_codec) fun _ _ => rfl
  have read : Takes codec.read (codec.write report) _ := takes_mapped
    (.field (takes_string report.sha256) (.field (takes_uint64 _ report.size)
      (.field imports (.field functions (.field globals (.field memory
        (.field takes .done))))))) (by decide)
  cases manifest <;> exact read

/-! ## Constants -/

variable {number : Binary64} {manifest : Manifest} {text : List Char}

/-- The fault of a null where a number should be. -/
def Json.noNumber : Fault := .content (.wrongType .null "f64")

theorem Json.takes_float_infinite (infinite : number.isFinite = false) :
    Takes Codec.float.read (.float number) (.error noNumber) := by
  have written : token? (.float number) = some "null".toList := by
    rw [token?, floatText, if_neg (by rw [infinite]; decide)]
  refine takes_token written fun lead rest blanks _ => ?_
  have null : Reader.numeral "f64" (lead ++ 'n' :: ('u' :: 'l' :: 'l' :: rest)) =
      .error noNumber := by
    rw [Reader.numeral, skipBlanks_lead blanks (by decide)]
    rfl
  exact Reader.bind_of_error null

namespace Compiled.Manifest

theorem takes_small (small : manifest.globalConst.IsSmallInteger) :
    Takes codec.read (codec.write manifest) (.ok manifest) := by
  have read := takes_codec small.finite
  rwa [reread_of_isSmallInteger small] at read

theorem takes_infinite (infinite : manifest.globalConst.isFinite = false) :
    Takes codec.read (codec.write manifest) (.error noNumber) := by
  have read := takes_constant (takes_float_infinite infinite)
  exact read

theorem toJson_infinite (infinite : manifest.globalConst.isFinite = false) :
    manifest.toJson = (Json.object [("version", .string manifest.version),
      ("global_const", .null), ("heap_start", .integer manifest.heapStart.toNat),
      ("max_memory_pages", .integer manifest.maxPages.toNat),
      ("exports", (Codec.list ManifestExport.codec).write manifest.exports)]).compactText := by
  have null : floatText manifest.globalConst = "null".toList := by
    rw [floatText, if_neg (by rw [infinite]; decide)]
  change String.ofList (compact (.object _)) = String.ofList (compact (.object _))
  have constant : Codec.float.write manifest.globalConst = .float manifest.globalConst := rfl
  simp only [Fields.write, compact, compactMembers, constant, null]
  rfl

end Compiled.Manifest

/-- No spelling of a report is taken whose manifest is without a finite constant. -/
theorem ModuleReport.takes_infinite {report : ModuleReport} (mem : report.manifest = some manifest)
    (infinite : manifest.globalConst.isFinite = false) :
    Takes codec.read (codec.write report) (.error noNumber) := by
  have refused : Takes (Codec.optional Manifest.codec).read
      ((Codec.optional Manifest.codec).write report.manifest) (.error noNumber) := by
    rw [mem]
    exact takes_optional_some (Manifest.takes_infinite infinite) rfl
  exact takes_codec refused

/-! ## All boundary types -/

/--
Reports on modules and on traps and typed integers come back from their texts exactly, a manifest
with its constant if that is a small whole number. A constant that is not finite is written as null,
and the manifest is refused in every spelling, by itself and in a report.
-/
theorem boundary_in_json :
    (∀ report : ModuleReport,
      (∀ manifest ∈ report.manifest, manifest.globalConst.IsSmallInteger) →
      ModuleReport.codec.parse report.toJson = .ok report) ∧
    (∀ report : TrapReport,
      TrapReport.codec.parse (TrapReport.codec.write report).compactText = .ok report) ∧
    (∀ scalar : Scalar, scalar.type ≠ .f64 →
      Scalar.codec.parse (Scalar.codec.write scalar).compactText = .ok scalar) ∧
    ∀ manifest : Manifest, manifest.globalConst.isFinite = false →
      manifest.toJson = (Json.object [("version", .string manifest.version),
        ("global_const", .null), ("heap_start", .integer manifest.heapStart.toNat),
        ("max_memory_pages", .integer manifest.maxPages.toNat),
        ("exports", (Codec.list ManifestExport.codec).write manifest.exports)]).compactText ∧
      Manifest.ofJson manifest.toJson = .error (.content (.wrongType .null "f64")) ∧
      (∀ text, Spells (Manifest.codec.write manifest) text →
        Manifest.ofJson (.ofList text) = .error (.content (.wrongType .null "f64"))) ∧
      ∀ report : ModuleReport, report.manifest = some manifest →
        ∀ text, Spells (ModuleReport.codec.write report) text →
          ModuleReport.codec.parse (.ofList text) =
            .error (.content (.wrongType .null "f64")) := by
  refine ⟨fun report small => ?_, fun report => ?_, fun scalar integral => ?_,
    fun manifest infinite => ⟨Manifest.toJson_infinite infinite, ?_, fun text spells => ?_,
      fun report mem text spells => ?_⟩⟩
  · have manifest : Takes (Codec.optional Manifest.codec).read
        ((Codec.optional Manifest.codec).write report.manifest) (.ok report.manifest) :=
      takes_optional (fun manifest mem => Manifest.takes_small (small manifest mem))
        fun _ _ => rfl
    exact parse_of_takes (ModuleReport.takes_codec manifest) (spells_pretty 0 _)
  · exact parse_of_takes report.takes_codec (spells_compact _)
  · exact parse_of_takes (Scalar.takes_integral integral) (spells_compact _)
  · exact parse_of_takes (Manifest.takes_infinite infinite) (spells_compact _)
  · exact parse_of_takes (Manifest.takes_infinite infinite) spells
  · exact parse_of_takes (ModuleReport.takes_infinite mem infinite) spells

/-- A report with awkward strings and the widest limits. -/
def awkwardReport (manifest : Option Manifest) : ModuleReport where
  sha256 := "\"quoted\" \\ \n"
  size := 0xffffffffffffffff
  imports := [⟨"env", "λ", ⟨["i32", ""], []⟩⟩]
  functions := []
  globals := [⟨"\t", "f64", true⟩]
  memory := some ⟨0, some 0xffffffffffffffff⟩
  manifest := manifest

/-- The boundary types at a report with awkward strings, and at a constant that is not a number. -/
theorem boundary_in_json_awkward :
    (∃ manifest : Manifest, manifest.globalConst.IsSmallInteger ∧
      ModuleReport.codec.parse (awkwardReport (some manifest)).toJson =
        .ok (awkwardReport (some manifest))) ∧
    TrapReport.codec.parse (TrapReport.codec.write ⟨some ⟨-1, 2, 3, 4⟩, "\"\\é"⟩).compactText =
      .ok ⟨some ⟨-1, 2, 3, 4⟩, "\"\\é"⟩ ∧
    (Scalar.i64 (-1)).type ≠ .f64 ∧
    Scalar.codec.parse (Scalar.codec.write (.i64 (-1))).compactText = .ok (.i64 (-1)) ∧
    (⟨0x7ff8000000000000⟩ : Binary64).isFinite = false ∧
    Manifest.ofJson (Manifest.mk "" ⟨0x7ff8000000000000⟩ 0 0 []).toJson =
      .error (.content (.wrongType .null "f64")) ∧
    ModuleReport.codec.parse
        (awkwardReport (some ⟨"", ⟨0x7ff8000000000000⟩, 0, 0, []⟩)).toJson =
      .error (.content (.wrongType .null "f64")) := by
  have small : (⟨0x4045000000000000⟩ : Binary64).IsSmallInteger := by
    refine ⟨by decide, 42, ?_, by decide⟩
    have significand : (⟨0x4045000000000000⟩ : Binary64).significand = 0x15000000000000 := by
      decide
    have exponent : (⟨0x4045000000000000⟩ : Binary64).exponent = -47 := by decide
    rw [Binary64.size, significand, exponent]
    norm_num
  obtain ⟨modules, traps, scalars, refused⟩ := boundary_in_json
  refine ⟨⟨⟨"", ⟨0x4045000000000000⟩, 0, 0, []⟩, small, modules _ ?_⟩, traps _, by decide,
    scalars _ (by decide), by decide, (refused _ (by decide)).2.1,
    (refused _ (by decide)).2.2.2 (awkwardReport _) rfl _ (spells_pretty 0 _)⟩
  rintro _ ⟨⟩
  exact small

end TableKernels
