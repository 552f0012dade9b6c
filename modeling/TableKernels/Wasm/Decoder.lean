import TableKernels.LittleEndian

/-!
# Decoders of a binary format

A `Decoder` takes a value from the head of a byte sequence and leaves the rest, or fails. The
combinators here read what every part of a module is made of: bytes, runs of bytes, and vectors.
-/

namespace TableKernels.Wasm

/-- Takes a value from the head of a byte sequence. -/
abbrev Decoder (α : Type) : Type := Bytes → Option (α × Bytes)

namespace Decoder

/-- Reads nothing. -/
def pure {α : Type} (value : α) : Decoder α := fun bytes => some (value, bytes)

/-- Goes on with what was read. -/
def bind {α β : Type} (first : Decoder α) (next : α → Decoder β) : Decoder β := fun bytes =>
  match first bytes with
  | some (value, rest) => next value rest
  | none => none

instance : Monad Decoder where
  pure := Decoder.pure
  bind := Decoder.bind

/-- Accepts no bytes. -/
def fail {α : Type} : Decoder α := fun _ => none

/-- Reads nothing, under a condition. -/
def require (condition : Bool) : Decoder Unit := if condition then pure () else fail

/-- Reads a byte. -/
def byte : Decoder UInt8
  | [] => none
  | first :: rest => some (first, rest)

/-- Reads a given byte. -/
def expect (wanted : UInt8) : Decoder Unit := do
  require ((← byte) == wanted)

/-- Reads so many bytes. -/
def take : Nat → Decoder Bytes
  | 0, bytes => some ([], bytes)
  | _ + 1, [] => none
  | count + 1, first :: rest => (take count rest).map fun (taken, rest) => (first :: taken, rest)

/-- Reads so many items. -/
def times {α : Type} (item : Decoder α) : Nat → Decoder (List α)
  | 0 => return []
  | count + 1 => do
    let value ← item
    return value :: (← times item count)

/-- A value that takes all of a byte sequence. -/
def whole {α : Type} (decoder : Decoder α) (bytes : Bytes) : Option α :=
  match decoder bytes with
  | some (value, []) => some value
  | _ => none

end Decoder

end TableKernels.Wasm
