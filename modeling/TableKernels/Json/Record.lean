import TableKernels.Json.Reader

/-!
# Records

A `Codec` reads and writes one type. `Fields` lists the members of a record in order, each with its
codec and with what happens when it is left out, and gives a codec for all of them together. A
record is an object, in any order of its members, or a list of its members in order. Each member
comes at most once; a member that nobody knows is passed over or refused, as the record says; of the
members left out the first in order is reported.
-/

namespace TableKernels.Json

/-- How a type is read and written. -/
structure Codec (α : Type) where
  read : Reader α
  write : α → Json

/-- A codec carried over to a type with the same values. -/
def Codec.map {α β : Type} (codec : Codec α) (into : α → β) (back : β → α) : Codec β where
  read := do return into (← codec.read)
  write := fun value => codec.write (back value)

/-- Whether a member may be left out. -/
inductive Presence (α : Type)
  /-- The member is always there. -/
  | required
  /-- The member may be left out of an object. -/
  | omissible (value : α)
  /-- The member may be left out of an object and of a list. -/
  | defaulted (value : α)

/-- What stands for a member left out of an object. -/
def Presence.inObject? {α : Type} : Presence α → Option α
  | .required => none
  | .omissible value | .defaulted value => some value

/-- What stands for a member left out of a list. -/
def Presence.inList? {α : Type} : Presence α → Option α
  | .required | .omissible _ => none
  | .defaulted value => some value

/-- The members of a record: `All` is the tuple of them, `Some` what was read of it so far. -/
inductive Fields : Type → Type → Type 1
  | done : Fields Unit Unit
  | field {α All Some : Type} (name : String) (codec : Codec α) (presence : Presence α)
      (rest : Fields All Some) : Fields (α × All) (Option α × Some)

namespace Fields

/-- The names of the fields. -/
def names {All Some : Type} : Fields All Some → List String
  | done => []
  | field name _ _ rest => name :: rest.names

/-- What is known of a record before any member was read. -/
def start {All Some : Type} : Fields All Some → Some
  | done => ()
  | field _ _ _ rest => (none, rest.start)

/-- Reads the member of a given name, which must be new; no reader if the name is unknown. -/
def member? {All Some : Type} (fields : Fields All Some) (key : String) (read : Some) :
    Option (Reader Some) :=
  match fields, read with
  | done, _ => none
  | field name codec _ rest, (value, others) =>
    if key = name then
      if value.isSome then some (Reader.complain (.duplicateField name))
      else some do
        Reader.colon
        return (some (← codec.read), others)
    else (rest.member? key others).map fun reader => do return (value, ← reader)

/-- All members, or the first that is missing. -/
def finish {All Some : Type} (fields : Fields All Some) (read : Some) : Except Complaint All :=
  match fields, read with
  | done, _ => .ok ()
  | field name _ presence rest, (value, others) =>
    match value.or presence.inObject? with
    | none => .error (.missingField name)
    | some value => (rest.finish others).map (value, ·)

/-- The members in order from the items of a list; `count` of them were read before. -/
def items {All Some : Type} (expected : String) :
    Fields All Some → Nat → Reader All
  | done, _ => return ()
  | field _ codec presence rest, count => do
    if ← Reader.nextItem (count == 0) then
      let value ← codec.read
      let others ← rest.items expected (count + 1)
      return (value, others)
    else match presence.inList? with
      | none => Reader.complain (.wrongLength count expected)
      | some value =>
        let others ← rest.items expected count
        return (value, others)

/-- The members of a record. -/
def write {All Some : Type} (fields : Fields All Some) (values : All) : List (String × Json) :=
  match fields, values with
  | done, _ => []
  | field name codec _ rest, (value, others) => (name, codec.write value) :: rest.write others

end Fields

/-- What is expected where a record should be. -/
def recordName (name : String) : String := "struct " ++ name

/-- What is expected where the list of the members of a record should be. -/
def recordLength (name : String) (count : Nat) : String :=
  recordName name ++ " with " ++ toString count ++
    (if count = 1 then " element" else " elements")

/-- The record of an object, after its opening brace. -/
def readObject {All Some : Type} (fields : Fields All Some) (strict : Bool) : Reader All := do
  let read ← Reader.members (fun key read =>
    match fields.member? key read with
    | some reader => reader
    | none =>
      if strict then Reader.complain (.unknownField key fields.names)
      else do
        Reader.colon
        Reader.ignored
        return read) fields.start
  match fields.finish read with
  | .error complaint => Reader.complain complaint
  | .ok all =>
    Reader.closeObject
    return all

/-- A record; a strict one refuses members that it does not know. -/
def readRecord {All Some : Type} (name : String) (fields : Fields All Some) (strict : Bool) :
    Reader All := fun text =>
  match skipBlanks text with
  | [] => .error .truncated
  | '\x7b' :: rest => readObject fields strict rest
  | '[' :: rest =>
    (do
      let all ← fields.items (recordLength name fields.names.length) 0
      Reader.closeList
      return all : Reader All) rest
  | text => Reader.mismatch (recordName name) text

/-- Records of some fields; a strict one knows no other members. -/
def Codec.record {All Some : Type} (name : String) (fields : Fields All Some) (strict : Bool) :
    Codec All where
  read := readRecord name fields strict
  write := fun values => .object (fields.write values)

namespace Codec

/-- Truth values in JSON. -/
def boolean : Codec Bool := ⟨Reader.boolean, .boolean⟩

/-- Strings in JSON. -/
def string : Codec String := ⟨Reader.string, .string⟩

/-- Floats in JSON. -/
def float : Codec Binary64 := ⟨Reader.float, .float⟩

/-- Lists in JSON. -/
def list {α : Type} (codec : Codec α) : Codec (List α) :=
  ⟨Reader.list codec.read, fun values => .array (values.map codec.write)⟩

/-- Values that may be missing in JSON, where `null` stands for none. -/
def optional {α : Type} (codec : Codec α) : Codec (Option α) :=
  ⟨Reader.optional codec.read, Json.ofOption codec.write⟩

/-- Signed words of 32 bits in JSON. -/
def int32 : Codec Int32 where
  read := do return Int32.ofInt (← Reader.integer "i32" Int32.minValue.toInt Int32.maxValue.toInt)
  write := fun value => .integer value.toInt

/-- Signed words of 64 bits in JSON. -/
def int64 : Codec Int64 where
  read := do return Int64.ofInt (← Reader.integer "i64" Int64.minValue.toInt Int64.maxValue.toInt)
  write := fun value => .integer value.toInt

/-- Unsigned words of 32 bits in JSON. -/
def uint32 : Codec UInt32 where
  read := do return UInt32.ofNat (← Reader.integer "u32" 0 0xffffffff).toNat
  write := fun value => .integer value.toNat

/-- Unsigned 64-bit integers, under the name that a complaint calls them by. -/
def uint64 (expected : String) : Codec UInt64 where
  read := do return UInt64.ofNat (← Reader.integer expected 0 0xffffffffffffffff).toNat
  write := fun value => .integer value.toNat

/-- Values in JSON by their names. -/
def enumerated {α : Type} (table : List (String × α)) (name : α → String) : Codec α :=
  ⟨Reader.enumerated table, fun value => .string (name value)⟩

/-- The value that a whole text holds. -/
def parse {α : Type} (codec : Codec α) (text : String) : Except Fault α :=
  codec.read.run text

end Codec

end TableKernels.Json
