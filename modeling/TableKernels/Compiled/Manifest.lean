import TableKernels.Codec.Boundary
import TableKernels.Config
import TableKernels.Wasm.Outline

/-!
# Manifests

A compiled module carries a custom section with a JSON text that says how it was built, so that a
host can look before it runs anything. `Manifest.ofModule` finds the first such section; what comes
after it is not looked at.
-/

namespace TableKernels.Compiled

open Json Wasm

/-- The name of the custom section that holds the manifest. -/
def sectionName : String := "numkern"

/-- The version of the compiler, which the manifest names. -/
def version : String := "0.1.0"

/-- An export as the manifest names it. -/
structure ManifestExport where
  name : String
  kind : ExportKind
deriving DecidableEq

/-- How a module was built. -/
structure Manifest where
  version : String
  /-- The constant baked into the module. -/
  globalConst : Binary64
  /-- The first byte of scratch space. -/
  heapStart : UInt32
  /-- The declared maximum of the memory, in pages. -/
  maxPages : UInt64
  exports : List ManifestExport
deriving DecidableEq

/-- Exports in a manifest. -/
def ManifestExport.codec : Codec ManifestExport :=
  (Codec.record "ManifestExport"
    (.field "name" .string .required <| .field "kind" ExportKind.codec .required .done) false).map
    (fun (name, kind, _) => ⟨name, kind⟩) (fun item => (item.name, item.kind, ()))

namespace Manifest

/-- Manifests in JSON. -/
def codec : Codec Manifest :=
  (Codec.record "Manifest"
    (.field "version" .string .required <| .field "global_const" .float .required <|
      .field "heap_start" .uint32 .required <|
      .field "max_memory_pages" (.uint64 "u64") .required <|
      .field "exports" (.list ManifestExport.codec) .required .done) false).map
    (fun (version, globalConst, heapStart, maxPages, exports, _) =>
      ⟨version, globalConst, heapStart, maxPages, exports⟩)
    (fun manifest =>
      (manifest.version, manifest.globalConst, manifest.heapStart, manifest.maxPages,
        manifest.exports, ()))

/-- The manifest of the module built for a configuration. -/
def ofConfig (config : Config) : Manifest where
  version := Compiled.version
  globalConst := config.globalConst
  heapStart := UInt32.ofNat TableKernels.heapStart
  maxPages := config.maxPages
  exports := exportTable.map fun row => ⟨row.name, row.kind⟩

/-- The text of a manifest, without blanks. -/
def toJson (manifest : Manifest) : String := (codec.write manifest).compactText

/-- The manifest that a text holds. -/
def ofJson (text : String) : Except Fault Manifest := codec.parse text

/-- The first export with a name. -/
def export? (manifest : Manifest) (name : String) : Option ManifestExport :=
  manifest.exports.find? (·.name == name)

end Manifest

/-- Why no manifest can be told from a byte sequence. -/
inductive ManifestFault
  /-- The bytes cannot be cut into sections up to the manifest. -/
  | notModule
  /-- The manifest is not UTF-8. -/
  | notText
  /-- The manifest is not a manifest in JSON. -/
  | unreadable (fault : Fault)
deriving DecidableEq

namespace Manifest

/-- The manifest that the content of its section holds. -/
def ofContent (content : Bytes) : Except ManifestFault Manifest :=
  match String.fromUTF8? ⟨content.toArray⟩ with
  | none => .error .notText
  | some text => (ofJson text).mapError .unreadable

/-- The content of the first manifest section. -/
def content? : List Section → Option Bytes
  | [] => none
  | .custom name content :: rest => if name = sectionName then some content else content? rest
  | _ :: rest => content? rest

/-- The manifest of a module, if it has one. -/
def ofOutline (outline : Outline) : Except ManifestFault (Option Manifest) :=
  match content? outline.sections with
  | some content => (ofContent content).map some
  | none => if outline.isComplete then .ok none else .error .notModule

/-- The manifest of a module given in bytes, if it has one. -/
def ofModule (bytes : Bytes) : Except ManifestFault (Option Manifest) :=
  ofOutline (.ofBytes bytes)

end Manifest

end TableKernels.Compiled
