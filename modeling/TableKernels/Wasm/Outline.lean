import TableKernels.Wasm.Types

/-!
# The outline of a module

A module is a header followed by sections: an identifying byte, a size, and so many bytes of
content. `Outline.ofBytes` cuts a byte sequence into its sections without looking into most of them:
it reads the count that stands at the head of a list of items, cuts code into its bodies, and reads
the name of a custom section. Sections may come in any order and repeatedly, and unknown ones are
kept. What cannot be cut ends the outline, which still holds the sections before it.

A component is laid out in the same way with sections of its own kinds. Two of them hold a module or
a component in turn, whose sections count where they stand; of the others only the custom ones are
told apart.
-/

namespace TableKernels.Wasm

/-- The lists of items that a module has sections for. -/
inductive Listing
  | types
  | imports
  | functions
  | tables
  | memories
  | globals
  | exports
  | elements
  | data
  | tags
deriving DecidableEq

/-- The listing with the code of its section. -/
def Listing.ofCode? (code : UInt8) : Option Listing :=
  match code with
  | 1 => some types
  | 2 => some imports
  | 3 => some functions
  | 4 => some tables
  | 5 => some memories
  | 6 => some globals
  | 7 => some exports
  | 9 => some elements
  | 11 => some data
  | 13 => some tags
  | _ => none

/-- A section of a module. -/
inductive Section
  | custom (name : String) (content : Bytes)
  | items (listing : Listing) (count : Nat) (content : Bytes)
  | start (function : UInt32)
  | code (bodies : List Bytes)
  | dataCount (count : UInt32)
  | unknown (code : UInt8) (content : Bytes)
deriving DecidableEq

namespace Section

/-- A sequence of bytes with its length in front. -/
def body : Decoder Bytes := do
  let size ← Leb128.natural 32
  Decoder.take size

/-- Reads the bytes of every body. -/
def bodies : Decoder (List Bytes) := do
  let count ← Leb128.natural 32
  Decoder.times body count

/-- A custom section, from its content. -/
def ofCustom? (content : Bytes) : Option Section :=
  (decodeName content).map fun (name, rest) => custom name rest

/-- A section from its identifying byte and its content. -/
def ofContent? (code : UInt8) (content : Bytes) : Option Section :=
  match Listing.ofCode? code with
  | some listing => (Leb128.natural 32 content).map fun (count, rest) => items listing count rest
  | none =>
    match code with
    | 0 => ofCustom? content
    | 8 => (Leb128.u32.whole content).map start
    | 10 => (bodies.whole content).map Section.code
    | 12 => (Leb128.u32.whole content).map dataCount
    | _ => some (unknown code content)

/-- The start function of a component, with its arguments and the number of its results. -/
def skipComponentStart : Decoder Unit := do
  let _ ← Leb128.u32
  let _ ← Decoder.vector Leb128.u32 arityLimit
  Decoder.require ((← Leb128.natural 32) ≤ arityLimit)

/-- A section of a component that holds no module or component. -/
def ofComponentContent? (code : UInt8) (content : Bytes) : Option Section :=
  match code with
  | 0 => ofCustom? content
  | 9 => (skipComponentStart.whole content).map fun () => unknown code content
  | 2 | 3 | 5 | 6 | 7 | 8 | 10 | 11 =>
    (Leb128.natural 32 content).map fun _ => unknown code content
  | _ => some (unknown code content)

/-- The written form of a section: its identifying byte and its content. -/
def encode (code : UInt8) (content : Bytes) : Bytes := code :: sized content

/-- The written form of a list of items. -/
def encodeItems {α : Type} (code : UInt8) (item : α → Bytes) (items : List α) : Bytes :=
  encode code (vector item items)

end Section

/-- The sections of a byte sequence, and whether they take all of it. -/
structure Outline where
  sections : List Section
  isComplete : Bool
deriving DecidableEq

/-- The bytes with which a module begins. -/
def magic : Bytes := [0x00, 0x61, 0x73, 0x6d]

/-- What a byte sequence holds. -/
inductive Layer
  | module
  | component
deriving DecidableEq

/-- The layer that the last two bytes of a header stand for. -/
def Layer.ofBytes? (bytes : Bytes) : Option Layer :=
  if bytes = [0, 0] then some module
  else if bytes = [1, 0] then some component
  else none

/-- The header of a module or component; any version will do. -/
structure Header where
  version : UInt64
  layer : Layer
deriving DecidableEq

/-- A header. -/
def Header.decode : Decoder Header := do
  Decoder.require ((← Decoder.take 4) == magic)
  let version ← Decoder.take 2
  match Layer.ofBytes? (← Decoder.take 2) with
  | some layer => return ⟨LittleEndian.decode version, layer⟩
  | none => Decoder.fail

/-- Whether a section holds a module or a component. -/
def Layer.isNesting (layer : Layer) (code : UInt8) : Bool :=
  layer = .component && (code == 1 || code == 4)

/-- The most bytes that a module within a component may have. -/
def nestedLimit : Nat := 0x40000000

namespace Outline

/-- No section, after which nothing can be cut. -/
def broken : Outline := ⟨[], false⟩

/-- The outline after one more section at the front. -/
def cons (first : Section) (outline : Outline) : Outline :=
  { outline with sections := first :: outline.sections }

/-- One outline after another, unless the first is broken off. -/
def append (first second : Outline) : Outline :=
  if first.isComplete then ⟨first.sections ++ second.sections, second.isComplete⟩ else first

/--
The sections at the head of a byte sequence, of which `room` bytes may be used; each step takes a
byte. A module within a component may be cut off by the end of the bytes, but not by the room that
was announced for it.
-/
def ofSections : Nat → Layer → Nat → Bytes → Outline
  | _, _, _, [] => ⟨[], true⟩
  | 0, _, _, _ :: _ => broken
  | fuel + 1, layer, room, code :: rest =>
    match Leb128.natural 32 rest with
    | none => broken
    | some (size, content) =>
      let left := room - (1 + rest.length - content.length)
      if 128 ≤ code ∨ left < size then broken
      else if layer.isNesting code then
        if nestedLimit < size then broken
        else
          let nested := match Header.decode (content.take size) with
            | some (header, inner) =>
              ofSections fuel header.layer (size - (content.take size).length + inner.length) inner
            | none => broken
          nested.append (ofSections fuel layer (left - size) (content.drop size))
      else
        match Decoder.take size content with
        | none => broken
        | some (content, rest) =>
          let found := match layer with
            | .module => Section.ofContent? code content
            | .component => Section.ofComponentContent? code content
          match found with
          | some found => cons found (ofSections fuel layer (left - size) rest)
          | none => broken

/-- The outline of a module or component. -/
def ofBytes (bytes : Bytes) : Outline :=
  match Header.decode bytes with
  | none => broken
  | some (header, rest) => ofSections rest.length header.layer 0xffffffffffffffff rest

end Outline

end TableKernels.Wasm
