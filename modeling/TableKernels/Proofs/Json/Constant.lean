import TableKernels.Codec.Config
import TableKernels.Compiled.Manifest
import TableKernels.Proofs.Json.Records

/-!
# The constant in its two JSON forms

A configuration and the manifest of a module both carry the constant. Whatever is written around it
is read back exactly, so all that can go wrong is the constant itself: either text is read as the
value that was written, but with the constant that its own text is read as, and is refused if that
is refused.
-/

namespace TableKernels

open Json Compiled

/-- A configuration is taken for itself, but for its constant. -/
theorem Config.takes_codec {config : Config} (finite : config.globalConst.isFinite = true) :
    Takes codec.read (codec.write config)
      ((reread config.globalConst).map ({ config with globalConst := · })) := by
  have cap (limit : Option Int64) :
      Takes (Codec.optional .int64).read ((Codec.optional .int64).write limit) (.ok limit) :=
    takes_optional (fun value _ => takes_int64 value) fun _ _ => rfl
  have read : Takes codec.read (codec.write config) _ := takes_mapped
    (.field (takes_float finite) (.field (takes_uint64 _ config.initialPages)
      (.field (takes_uint64 _ config.maxPages) (.field (cap config.fibonacciCap)
        (.field (cap config.sieveCap) .done))))) (by decide)
  cases same : reread config.globalConst <;> rw [same] at read <;> exact read

namespace Compiled

theorem ManifestExport.takes_codec (item : ManifestExport) :
    Takes codec.read (codec.write item) (.ok item) := by
  have kind : Takes ExportKind.codec.read (ExportKind.codec.write item.kind) (.ok item.kind) :=
    takes_enumerated (by cases item.kind <;> rfl)
  have read : Takes codec.read (codec.write item) _ :=
    takes_mapped (.field (takes_string item.name) (.field kind .done)) (by decide)
  exact read

/-- A manifest is taken for itself, but for what is made of its constant. -/
theorem Manifest.takes_constant {manifest : Manifest} {constant : Except Fault Binary64}
    (takes : Takes Codec.float.read (.float manifest.globalConst) constant) :
    Takes codec.read (codec.write manifest)
      (constant.map ({ manifest with globalConst := · })) := by
  have exports : Takes (Codec.list ManifestExport.codec).read
      ((Codec.list ManifestExport.codec).write manifest.exports) (.ok manifest.exports) :=
    takes_list fun item _ => item.takes_codec
  have read : Takes codec.read (codec.write manifest) _ := takes_mapped
    (.field (takes_string manifest.version) (.field takes
      (.field (takes_uint32 manifest.heapStart) (.field (takes_uint64 _ manifest.maxPages)
        (.field exports .done))))) (by decide)
  cases constant <;> exact read

/-- A manifest is taken for itself, but for its constant. -/
theorem Manifest.takes_codec {manifest : Manifest} (finite : manifest.globalConst.isFinite = true) :
    Takes codec.read (codec.write manifest)
      ((reread manifest.globalConst).map ({ manifest with globalConst := · })) :=
  takes_constant (takes_float finite)

/-- The text of a manifest is read as the manifest, but for its constant. -/
theorem Manifest.ofJson_toJson (manifest : Manifest)
    (finite : manifest.globalConst.isFinite = true) : Manifest.ofJson manifest.toJson =
      (reread manifest.globalConst).map ({ manifest with globalConst := · }) :=
  parse_of_takes (takes_codec finite) (spells_compact _)

end Compiled

/-- The text of a configuration is read as the configuration, but for its constant. -/
theorem Config.parse_toJson {config : Config} (finite : config.globalConst.isFinite = true) :
    codec.parse config.toJson =
      (reread config.globalConst).map ({ config with globalConst := · }) :=
  parse_of_takes (takes_codec finite) (spells_pretty 0 _)

end TableKernels
