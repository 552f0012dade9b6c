import TableKernels.Wasm.Text.Names

/-!
# Custom sections in the text of a module

Some annotations among the fields of a module stand for custom sections. Nothing that runs depends
on them, so it only matters whether they are well formed, which `isCustomSection` decides.
-/

namespace TableKernels.Wasm.Text

namespace Parse

/-- Takes one of some words. -/
def oneOf (words : List String) : Parse Unit := do
  match ← next with
  | .word letters => require (words.contains letters)
  | _ => refuse

/-- Takes a list, by taking all that is in it. -/
def inList {α : Type} (parse : Parse α) : Parse α := do
  match ← next with
  | .list items => given (whole parse items)
  | _ => refuse

/-- Goes on as long as anything remains, where each step takes a tree at least. -/
def throughout (parse : Parse Unit) : Parse Unit := fun trees => go trees.length trees
where
  go : Nat → Parse Unit
    | _, [] => some ((), [])
    | 0, _ :: _ => none
    | fuel + 1, tree :: rest =>
      match parse (tree :: rest) with
      | some ((), rest) => go fuel rest
      | none => none

/-- Takes two texts. -/
def twoTexts : Parse Unit := do
  let _ ← text
  let _ ← text

/-- The sections beside which another may be put. -/
def sectionNames : List String :=
  ["type", "import", "func", "table", "memory", "global", "export", "start", "elem", "code",
    "data", "tag"]

/-- Where a section is put among the others. -/
def placement : Parse Unit := do
  if ← keyword "before" then oneOf ("first" :: sectionNames)
  else
    oneOf ["after"]
    oneOf ("last" :: sectionNames)

/-- A section of any kind: its name, perhaps its place, and its content in strings. -/
def customSection : Parse Unit := do
  let _ ← text
  match (← get).head? with
  | some (.list _) => inList placement
  | _ => pure ()
  let _ ← strings

/-- Takes a tool that had a part in making the module. -/
def producer : Parse Unit := inList do
  oneOf ["language", "sdk", "processed-by"]
  twoTexts

/-- Two sizes in a list after a word, if such a list comes next. -/
def sizes (letters : String) : Parse Unit := do
  match ← listOf? letters with
  | none => return
  | some items => given (whole twoNumbers items)
where
  /-- Two numbers. -/
  twoNumbers : Parse Unit := do
    let _ ← natural 0x100000000
    let _ ← natural 0x100000000

/-- What is known of a symbol. -/
def symbolFlags : Parse Unit :=
  throughout (oneOf ["binding-weak", "binding-local", "visibility-hidden", "undefined", "exported",
    "explicit-name", "tls", "absolute", "no-strip"])

/-- A part of what dynamic linking needs to know. -/
def linkingPart : Parse Unit := inList do
  match ← next with
  | .word "mem-info" => do
    sizes "memory"
    sizes "table"
  | .word "needed" | .word "runtime-path" => throughout do
    let _ ← text
  | .word "export-info" => do
    let _ ← text
    symbolFlags
  | .word "import-info" => do
    twoTexts
    symbolFlags
  | _ => refuse

end Parse

/-- Whether an annotation of a kind with some items is a well-formed custom section. -/
def isCustomSection (kind : String) (items : List Tree) : Bool :=
  match kind with
  | "custom" => (Parse.whole Parse.customSection items).isSome
  | "producers" => (Parse.whole (Parse.throughout Parse.producer) items).isSome
  | "dylink.0" => (Parse.whole (Parse.throughout Parse.linkingPart) items).isSome
  | _ => false

end TableKernels.Wasm.Text
