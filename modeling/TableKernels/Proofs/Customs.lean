import TableKernels.Proofs.Constant
import TableKernels.Proofs.Hosted.Labels
import TableKernels.Proofs.Wasm.Reading.Customs

/-!
# Extra custom sections

A compiled module may be given more custom sections. Behind its own section they change nothing
that is read of the module, however they are called: a manifest is looked for from the front,
inspection passes over custom sections, and an instance has none. In front of the embedded manifest,
the first of them with its name is the manifest instead, and if that cannot be read the module is
neither inspected nor hosted.
-/

namespace TableKernels

open Wasm Compiled

/-! ## What reads the sections -/

variable {bytes other front back : Bytes} {sections first second : List Section}
  {config hostConfig : Config}

theorem Survey.ofOutline_plainSections (sections : List Section) (complete : Bool) :
    ofOutline ⟨plainSections sections, complete⟩ = ofOutline ⟨sections, complete⟩ := by
  have passes (survey : Survey) (name : String) (content : Bytes) :
      survey.addSection (.custom name content) = pure survey := rfl
  simp only [ofOutline, foldlM_plainSections passes]

/-- A manifest is looked for in the sections one after another. -/
theorem Compiled.Manifest.content?_append (first second : List Section) :
    content? (first ++ second) = (content? first).or (content? second) := by
  induction first with
  | nil => rfl
  | cons one first hypothesis =>
    cases one with
    | custom name content =>
      rw [List.cons_append, content?, content?]
      split
      · rfl
      · exact hypothesis
    | _ => exact hypothesis

theorem Compiled.Manifest.content?_customs (customs : List CustomSection) :
    content? (customs.map (·.found)) =
      (customs.find? (·.name = sectionName)).map (·.content) := by
  induction customs with
  | nil => rfl
  | cons custom customs hypothesis =>
    rw [List.map_cons, CustomSection.found, content?, List.find?_cons]
    split
    · next same => rw [decide_eq_true same]; rfl
    · next different => rw [decide_eq_false different, hypothesis]

/-- A module in bytes is linked as its sections say that are not custom. -/
theorem LinkedModule.ofModule?_header
    (outline : Outline.ofBytes (Module.header ++ bytes) = ⟨sections, true⟩) :
    ofModule? (Module.header ++ bytes) =
      (Module.ofSections? (plainSections sections)).bind fun program =>
        program.instantiate? HostState.linker .new := by
  have source : Module.ofSource? (Module.header ++ bytes) = Module.ofSections? sections := by
    have begins : bytesOfSource? (Module.header ++ bytes) = some (Module.header ++ bytes) :=
      bytesOfSource?_magic_append ([1, 0, 0, 0] ++ bytes)
    have head : Header.decode (Module.header ++ bytes) = some (⟨1, .module⟩, bytes) := rfl
    simp only [Module.ofSource?, begins, Option.bind_some, Module.decode?, head, outline,
      Option.bind_eq_bind, ne_eq, not_true_eq_false, if_false, Bool.not_true, Bool.false_eq_true]
  rw [ofModule?, source, Module.ofSections?_plainSections, Option.bind_eq_bind, Option.bind_map]
  simp only [Function.comp_def, Module.instantiate?_withoutCustoms]

/-! ## Modules with the sections of a compiled one -/

/-- Bytes of a module that has the sections of a compiled module and custom ones in between. -/
structure HoldsKernel (config : Config) (bytes : Bytes) (sections : List Section) : Prop where
  outline : Outline.ofBytes bytes = ⟨sections, true⟩
  plain : plainSections sections = plainSections (kernelModule config).sections
  header : ∃ rest, bytes = Module.header ++ rest

namespace HoldsKernel

theorem encode (valid : config.IsValid) :
    HoldsKernel config (kernelModule config).encode (kernelModule config).sections := by
  obtain ⟨_, _, outline⟩ := (kernelModule_isWritable valid).outline
  obtain ⟨body, written, _⟩ := (kernelModule_isWritable valid).cuts
  exact ⟨outline, rfl, body, written⟩

variable (holds : HoldsKernel config bytes sections) {content : Bytes}

include holds

/-- The manifest is what the first content is read as. -/
theorem manifest (found : Manifest.content? sections = some content) :
    Manifest.ofModule bytes = (Manifest.ofContent content).map some := by
  rw [Manifest.ofModule, holds.outline, Manifest.ofOutline, found]

/-- Inspection reports the parts of the compiled module, if it can read the manifest. -/
theorem inspect (valid : config.IsValid) (found : Manifest.content? sections = some content) :
    inspect bytes = ((Manifest.ofContent content).mapError .manifest).map
      (kernelReport config bytes) := by
  have surveyed : Survey.ofOutline ⟨sections, true⟩ = .ok (kernelSurvey config) := by
    rw [← Survey.ofOutline_plainSections, holds.plain, Survey.ofOutline_plainSections,
      ofOutline_kernelModule valid]
  simp only [TableKernels.inspect, holds.outline, surveyed, importReports_kernelSurvey,
    exportReports_kernelSurvey, Manifest.ofOutline, found, bind, Except.bind]
  cases Manifest.ofContent content <;> rfl

theorem linked (valid : config.IsValid) :
    LinkedModule.ofModule? bytes = LinkedModule.ofModule? (kernelModule config).encode := by
  have own := encode valid
  obtain ⟨rest, rfl⟩ := holds.header
  obtain ⟨body, written⟩ := own.header
  rw [written] at own ⊢
  rw [LinkedModule.ofModule?_header holds.outline, holds.plain,
    LinkedModule.ofModule?_header own.outline]

theorem not_hosted (valid : config.IsValid) (hostValid : hostConfig.IsValid)
    (found : Manifest.content? sections = some content) {fault : ManifestFault}
    (unread : Manifest.ofContent content = .error fault) :
    HostedKernel.ofModule bytes hostConfig = .error (.inspection (.manifest fault)) := by
  have checked := Config.validate_eq_ok.mpr hostValid
  have looked := holds.inspect valid found
  rw [unread] at looked
  simp only [HostedKernel.ofModule, checked, looked, Except.mapError, Except.map, Bind.bind,
    Except.bind]

/-- With a manifest that can be read, the instance is hosted under the report of the bytes. -/
theorem hosted (valid : config.IsValid) (hostValid : hostConfig.IsValid)
    (found : Manifest.content? sections = some content) {manifest : Manifest}
    (read : Manifest.ofContent content = .ok manifest) {frames : Frames}
    (linked : LinkedModule.ofModule? (kernelModule config).encode =
      some (instanceOf config frames)) :
    HostedKernel.ofModule bytes hostConfig = .ok (HostedKernel.log
      ⟨hostConfig, kernelReport config bytes manifest, (kernelBounds config).pages,
        instanceOf config frames, Compiled.surface, false⟩ .info
      (HostedKernel.instantiatedText (kernelReport config bytes manifest)
        (kernelBounds config).pages)) := by
  have checked := Config.validate_eq_ok.mpr hostValid
  have looked := holds.inspect valid found
  rw [read] at looked
  have exported := Surface.ofLinked_eq_ok.mpr (surface_isOf config frames)
  have memory : (kernelReport config bytes manifest).memory = some (kernelBounds config) := rfl
  rw [← holds.linked valid] at linked
  simp only [HostedKernel.ofModule, checked, looked, linked, exported, memory, Except.mapError,
    Except.map, Bind.bind, Except.bind, Pure.pure, Except.pure]

/-- A kernel of other bytes with the same instance acts alike; each has the report on its bytes. -/
theorem actsLike (valid : config.IsValid) (hostValid : hostConfig.IsValid)
    {sections' : List Section} (holds' : HoldsKernel config other sections') {content' : Bytes}
    (found : Manifest.content? sections = some content)
    (found' : Manifest.content? sections' = some content') {manifest manifest' : Manifest}
    (read : Manifest.ofContent content = .ok manifest)
    (read' : Manifest.ofContent content' = .ok manifest') :
    ∃ kernel kernel', HostedKernel.ofModule bytes hostConfig = .ok kernel ∧
      HostedKernel.ofModule other hostConfig = .ok kernel' ∧
        kernel.report = kernelReport config bytes manifest ∧
          kernel'.report = kernelReport config other manifest' ∧ kernel.ActsLike kernel' := by
  obtain ⟨frames, _, linked⟩ := LinkedModule.ofModule?_encode valid
  have hosted := holds.hosted valid hostValid found read linked
  obtain ⟨_, admits⟩ := HostedKernel.admits_of_ofModule hosted
  have streamed := admits.isStreamed
  exact ⟨_, _, hosted, holds'.hosted valid hostValid found' read' linked, rfl, rfl,
    HostedKernel.actsLike_of_same ⟨streamed.linked, streamed.described⟩ rfl⟩

end HoldsKernel

/-! ## Where custom sections are put -/

/-- The bytes of the manifest that is compiled in. -/
def embedded (config : Config) : Bytes := (Manifest.ofConfig config).toJson.toUTF8.toList

theorem sections_kernelModule (config : Config) :
    ∃ init, (kernelModule config).sections = init ++ [.custom sectionName (embedded config)] ∧
      Manifest.content? init = none :=
  ⟨(kernelModule config).sections.dropLast, rfl, rfl⟩

theorem exists_embedded (valid : config.IsValid) :
    ∃ manifest, Manifest.ofContent (embedded config) = .ok manifest := by
  obtain ⟨value, read, _⟩ := Json.exists_reread valid.finite
  have parsed := Manifest.ofJson_toJson (.ofConfig config) valid.finite
  change _ = (Json.reread config.globalConst).map _ at parsed
  rw [read] at parsed
  refine ⟨{ Manifest.ofConfig config with globalConst := value }, ?_⟩
  rw [Manifest.ofContent, embedded, fromUTF8?_toUTF8]
  simp only [parsed]
  rfl

theorem HoldsKernel.insert (valid : config.IsValid)
    (written : (kernelModule config).encode = front ++ back)
    (complete : (Outline.ofBytes front).isComplete = true) (customs : List CustomSection)
    (short : (front ++ (customs.flatMap (·.encode) ++ back)).length < 0x10000000000000000) :
    ∃ first second, (kernelModule config).sections = first ++ second ∧ Sectioned back second ∧
      HoldsKernel config (front ++ (customs.flatMap (·.encode) ++ back))
        (first ++ (customs.map (·.found) ++ second)) := by
  obtain ⟨body, encoded, _, cuts⟩ := (kernelModule_isWritable valid).cuts
  have sectioned := Sectioned.of_ofSections (cuts _ _ (le_refl _) (le_refl _))
  obtain ⟨first, second, bytes, same, right, inserted, outline⟩ :=
    Outline.ofBytes_insert (written.symm.trans encoded) sectioned complete customs short
  refine ⟨first, second, same, right, inserted ▸ outline, ?_, bytes, inserted⟩
  rw [plainSections_insert, same]

/-! ## What becomes of a module -/

/-- The report with the size and the digest of other bytes. -/
def ModuleReport.remeasured (report : ModuleReport) (bytes : Bytes) : ModuleReport :=
  { report with sha256 := Sha256.hexDigest bytes, size := UInt64.ofNat bytes.length }

/--
Bytes are told and hosted as others are, but for the size and the digest in the report; the kernels
act alike in every run.
-/
structure IsInert (bytes extended : Bytes) : Prop where
  manifest : Manifest.ofModule extended = Manifest.ofModule bytes
  inspected : ∃ report, inspect bytes = .ok report ∧
    inspect extended = .ok (report.remeasured extended)
  hosted : ∀ hostConfig : Config, hostConfig.validate = .ok () →
    ∃ kernel kernel', HostedKernel.ofModule bytes hostConfig = .ok kernel ∧
      HostedKernel.ofModule extended hostConfig = .ok kernel' ∧
        kernel'.report = kernel.report.remeasured extended ∧ kernel.ActsLike kernel'

/--
The manifest of bytes is what a content is read as. If that can be read, the bytes are inspected and
hosted with this manifest; otherwise its fault is the only one.
-/
structure IsGoverned (bytes content : Bytes) : Prop where
  manifest : Manifest.ofModule bytes = (Manifest.ofContent content).map some
  read : ∀ manifest, Manifest.ofContent content = .ok manifest →
    (∃ report, inspect bytes = .ok report ∧ report.manifest = some manifest) ∧
      ∀ hostConfig : Config, hostConfig.validate = .ok () →
        ∃ kernel, HostedKernel.ofModule bytes hostConfig = .ok kernel ∧
          kernel.report.manifest = some manifest
  /-- The content is not text, or the text is not a manifest. -/
  unread : ∀ fault, Manifest.ofContent content = .error fault → fault ≠ .notModule ∧
    inspect bytes = .error (.manifest fault) ∧
      ∀ hostConfig : Config, hostConfig.validate = .ok () →
        HostedKernel.ofModule bytes hostConfig = .error (.inspection (.manifest fault))

theorem Compiled.Manifest.ne_notModule {content : Bytes} {fault : ManifestFault}
    (unread : ofContent content = .error fault) : fault ≠ .notModule := by
  rw [ofContent] at unread
  rintro rfl
  split at unread
  · cases unread
  · next text _ =>
    cases read : ofJson text with
    | ok manifest =>
      rw [read] at unread
      cases unread
    | error fault =>
      rw [read] at unread
      cases unread

/-- Custom sections behind the embedded manifest change nothing. -/
theorem isInert_append (valid : config.IsValid) (customs : List CustomSection)
    (short : ((kernelModule config).encode ++ customs.flatMap (·.encode)).length <
      0x10000000000000000) :
    IsInert (kernelModule config).encode
      ((kernelModule config).encode ++ customs.flatMap (·.encode)) := by
  have own := HoldsKernel.encode valid
  obtain ⟨init, ends, none⟩ := sections_kernelModule config
  obtain ⟨manifest, read⟩ := exists_embedded valid
  have complete : (Outline.ofBytes (kernelModule config).encode).isComplete = true := by
    rw [own.outline]
  obtain ⟨first, second, same, right, holds⟩ := HoldsKernel.insert valid
    (List.append_nil _).symm complete customs (by rwa [List.append_nil])
  cases right
  rw [List.append_nil] at same holds
  subst same
  have found : Manifest.content? (kernelModule config).sections = some (embedded config) := by
    rw [ends, Manifest.content?_append, none]
    rfl
  have found' : Manifest.content? ((kernelModule config).sections ++
      (customs.map (·.found) ++ [])) = some (embedded config) := by
    rw [Manifest.content?_append, found, Option.some_or]
  refine ⟨(holds.manifest found').trans (own.manifest found).symm,
    ⟨kernelReport config (kernelModule config).encode manifest, ?_, ?_⟩,
    fun hostConfig accepted => ?_⟩
  · rw [own.inspect valid found, read]
    rfl
  · rw [holds.inspect valid found', read]
    rfl
  · obtain ⟨kernel, kernel', hosted, hosted', report, report', alike⟩ :=
      own.actsLike valid (Config.validate_eq_ok.mp accepted) holds found found' read read
    refine ⟨kernel, kernel', hosted, hosted', ?_, alike⟩
    rw [report', report]
    rfl

/-- The first manifest among custom sections in front of the embedded one governs the module. -/
theorem isGoverned_insert (valid : config.IsValid)
    (written : (kernelModule config).encode = front ++ back)
    (complete : (Outline.ofBytes front).isComplete = true) (before : back ≠ [])
    {customs : List CustomSection} {custom : CustomSection}
    (named : customs.find? (·.name = sectionName) = some custom)
    (short : (front ++ (customs.flatMap (·.encode) ++ back)).length < 0x10000000000000000) :
    IsGoverned (front ++ (customs.flatMap (·.encode) ++ back)) custom.content := by
  obtain ⟨init, ends, none⟩ := sections_kernelModule config
  obtain ⟨first, second, same, right, holds⟩ := HoldsKernel.insert valid written complete customs
    short
  -- The embedded manifest is behind, so no manifest is in front.
  have front_none : Manifest.content? first = Option.none := by
    have behind : second ≠ [] := by
      rintro rfl
      cases right
      exact before rfl
    rw [ends] at same
    have prefixed : init = first ++ second.dropLast := by
      rw [← List.dropLast_append_of_ne_nil behind, ← same, List.dropLast_concat]
    rw [prefixed, Manifest.content?_append] at none
    exact (Option.or_eq_none_iff.mp none).1
  have found : Manifest.content? (first ++ (customs.map (·.found) ++ second)) =
      some custom.content := by
    rw [Manifest.content?_append, Manifest.content?_append, front_none,
      Manifest.content?_customs, named]
    rfl
  have looked := holds.inspect valid found
  refine ⟨holds.manifest found, fun manifest read => ?_, fun fault unread => ?_⟩
  · rw [read] at looked
    obtain ⟨frames, _, linked⟩ := LinkedModule.ofModule?_encode valid
    exact ⟨⟨_, looked, rfl⟩, fun hostConfig accepted =>
      ⟨_, holds.hosted valid (Config.validate_eq_ok.mp accepted) found read linked, rfl⟩⟩
  · rw [unread] at looked
    exact ⟨Manifest.ne_notModule unread, looked, fun hostConfig accepted =>
      holds.not_hosted valid (Config.validate_eq_ok.mp accepted) found unread⟩

/--
Custom sections behind the sections of a compiled module change nothing, whatever they are. Put in
front of the embedded manifest, where any section ends, the first of them with the name
of a manifest is the manifest of the module. A word must count the bytes in either case.
-/
theorem extra_customs (config : Config) (accepted : config.validate = .ok ())
    (customs : List CustomSection) :
    ∃ bytes, compile config = .ok bytes ∧
      ((bytes ++ customs.flatMap (·.encode)).length < 0x10000000000000000 →
        IsInert bytes (bytes ++ customs.flatMap (·.encode))) ∧
      ∀ front back custom, bytes = front ++ back → (Outline.ofBytes front).isComplete = true →
        back ≠ [] → customs.find? (·.name = sectionName) = some custom →
        (front ++ (customs.flatMap (·.encode) ++ back)).length < 0x10000000000000000 →
          IsGoverned (front ++ (customs.flatMap (·.encode) ++ back)) custom.content := by
  have valid := Config.validate_eq_ok.mp accepted
  exact ⟨_, compile_eq_ok.mpr ⟨valid, rfl⟩, isInert_append valid customs,
    fun _ _ _ written complete before named short =>
      isGoverned_insert valid written complete before named short⟩

/-- A custom section with the name of a manifest that is not text; its size is padded. -/
def garbledManifest : CustomSection where
  name := sectionName
  content := [0xff]
  nameSize := [7]
  size := [0x89, 0x00]
  short := by decide
  counts_name := fun _ => rfl
  counts := fun _ => rfl

/-- The default module with such a section behind its own, and with one in front of all. -/
theorem extra_customs_default :
    ∃ bytes body, compile .default = .ok bytes ∧ bytes = Module.header ++ body ∧
      IsInert bytes (bytes ++ [garbledManifest].flatMap (·.encode)) ∧
      Manifest.ofContent garbledManifest.content = .error .notText ∧
      IsGoverned (Module.header ++ ([garbledManifest].flatMap (·.encode) ++ body))
        garbledManifest.content := by
  have accepted : Config.default.validate = .ok () := by decide
  have valid := Config.validate_eq_ok.mp accepted
  obtain ⟨body, written, short, cuts⟩ := (kernelModule_isWritable valid).cuts
  obtain ⟨bytes, compiled, appended, inserted⟩ := extra_customs .default accepted [garbledManifest]
  obtain rfl := (compile_eq_ok.mp compiled).2
  have few : ([garbledManifest].flatMap (·.encode)).length = 12 := by cbv
  have header : Module.header.length = 8 := rfl
  have nonempty : body ≠ [] := by
    rintro rfl
    cases cuts 0 0 (le_refl _) (le_refl _)
  refine ⟨_, body, compiled, written, appended ?_, rfl,
    inserted _ body garbledManifest written rfl nonempty rfl ?_⟩
  · rw [written, List.length_append, List.length_append, few, header]
    omega
  · rw [List.length_append, List.length_append, few, header]
    omega

end TableKernels
