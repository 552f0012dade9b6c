import TableKernels.Wasm.Text.Field

/-!
# Module sources

A module may be handed over as bytes or as text. A text is assembled to bytes, which are then read
like any other, so whatever bounds the bytes of a module bounds its text as well.
-/

namespace TableKernels.Wasm

/-- The bytes that a text stands for: those it spells out, or the written form of its fields. -/
def assemble? (text : String) : Option Bytes := do
  match ← Text.Tree.read? text with
  | .list (.word "module" :: items) :: others =>
    if !others.isEmpty then none
    let (_, items) ← Text.Parse.titled items
    match items with
    | .word "binary" :: strings => Text.Parse.whole Text.Parse.strings strings
    | fields => (Text.assemblyOf? fields).map Text.Assembly.encode
  | fields => (Text.assemblyOf? fields).map Text.Assembly.encode

/-- The bytes of a module that is handed over: what does not begin like bytes is text. -/
def bytesOfSource? (source : Bytes) : Option Bytes :=
  if magic.isPrefixOf source then some source
  else (String.fromUTF8? ⟨source.toArray⟩).bind assemble?

theorem bytesOfSource?_magic_append (rest : Bytes) :
    bytesOfSource? (magic ++ rest) = some (magic ++ rest) := by
  simp [bytesOfSource?, magic]

/-- The module that a source holds. -/
def Module.ofSource? (source : Bytes) : Option Module :=
  (bytesOfSource? source).bind Module.decode?

end TableKernels.Wasm
