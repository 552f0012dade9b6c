import TableKernels.Failure
import TableKernels.Json.Record

/-!
# The boundary types in JSON

Codecs of what crosses the boundary of a module: names of entry points, types, kinds and checks,
diagnostics and trap reports, and scalars. A scalar names its type beside its value; the two come in
either order, and a value that comes first is kept until its type is known.
-/

namespace TableKernels

open Json

/-- Entry points in JSON, by name. -/
def EntryPoint.codec : Codec EntryPoint :=
  .enumerated (EntryPoint.all.map fun entry => (entry.name, entry)) EntryPoint.name

/-- The names of the types. -/
def ScalarType.table : List (String × ScalarType) :=
  [.i32, .i64, .f64].map fun type => (ScalarType.name type, type)

/-- Types of scalars in JSON, by name. -/
def ScalarType.codec : Codec ScalarType := .enumerated ScalarType.table ScalarType.name

/-- Kinds of exports in JSON, by name. -/
def ExportKind.codec : Codec ExportKind :=
  .enumerated ([.func, .global, .memory].map fun kind => (ExportKind.name kind, kind))
    ExportKind.name

/-- Checks of arguments in JSON, by name. -/
def ArgumentCheck.codec : Codec ArgumentCheck :=
  .enumerated
    ([.negative, .exceedsIndexRange, .exceedsHostLimit].map fun check =>
      (ArgumentCheck.name check, check))
    ArgumentCheck.name

/-- Diagnostics in JSON. -/
def Abort.codec : Codec Abort :=
  (Codec.record "AbortInfo"
    (.field "code" .int32 .required <| .field "file" .int32 .required <|
      .field "line" .int32 .required <| .field "column" .int32 .required .done) false).map
    (fun (code, file, line, column, _) => ⟨code, file, line, column⟩)
    (fun abort => (abort.code, abort.file, abort.line, abort.column, ()))

/-- Trap reports; the diagnostic may be left out. -/
def TrapReport.codec : Codec TrapReport :=
  (Codec.record "TrapInfo"
    (.field "abort" (.optional Abort.codec) (.omissible none) <|
      .field "message" .string .required .done) false).map
    (fun (abort, message, _) => ⟨abort, message⟩)
    (fun report => (report.abort, report.message, ()))

namespace Json

/-- What a reader met in a tree where it wanted something else. -/
def found : Json → Found
  | null => .null
  | boolean value => .boolean value
  | integer value => .integer value
  | float value => .float value
  | string value => .string value
  | array _ => .sequence
  | object _ => .map

/-- How deep lists and objects may be nested in a tree that is kept. -/
def nestingLimit : Nat := 126

/-- Any value as a tree; `inner` reads what is nested in it, unless it is nested too deep. -/
def readTreeWith (inner : Option (Reader Json)) : Reader Json := fun text =>
  match skipBlanks text with
  | [] => .error .truncated
  | first :: rest =>
    if first = quote then (readQuoted rest).map fun (value, rest) => (.string value, rest)
    else if first = '-' ∨ isDigit first then
      (readNumeral (first :: rest)).map fun (value, rest) =>
        match value with
        | .integer value => (.integer value, rest)
        | .float value => (.float value, rest)
    else
      match first, inner with
      | 'n', _ => Reader.nullRest Json.null rest
      | 't', _ => Reader.word ['r', 'u', 'e'] (Json.boolean true) rest
      | 'f', _ => Reader.word ['a', 'l', 's', 'e'] (Json.boolean false) rest
      | '[', some inner => (Reader.items inner rest).map fun (items, rest) => (.array items, rest)
      | '\x7b', some inner =>
        (do
          let members ← Reader.members (fun name (members : List (String × Json)) => do
            Reader.colon
            return (name, ← inner) :: members) []
          Reader.closeObject
          return Json.object members.reverse : Reader Json) rest
      | _, _ => .error .malformed

/-- Any value as a tree, nested to the given depth. -/
def readTree : Nat → Reader Json
  | 0 => readTreeWith none
  | depth + 1 => readTreeWith (some (readTree depth))

end Json

namespace Scalar

/-- What is expected where a scalar should be. -/
def expectation : String := "adjacently tagged enum Value"

/-- The value of a scalar whose type is known. -/
def readValue : ScalarType → Reader Scalar
  | .i32 => do return .i32 (← Codec.int32.read)
  | .i64 => do return .i64 (← Codec.int64.read)
  | .f64 => do return .f64 (← Codec.float.read)

/-- An integer of a tree between two bounds. -/
def treeInteger (expected : String) (least greatest : Int) :
    Json → Except Complaint Int
  | .integer value =>
    if least ≤ value ∧ value ≤ greatest then .ok value else .error (.outOfRange value expected)
  | tree => .error (.wrongType tree.found expected)

/-- A number of a tree; an integer is rounded. -/
def treeFloat : Json → Except Complaint Binary64
  | .float value => .ok value
  | .integer value => .ok (.ofInt value)
  | tree => .error (.wrongType tree.found "f64")

/-- The value of a scalar that was read before its type. -/
def ofTree (tree : Json) : ScalarType → Except Complaint Scalar
  | .i32 => do
    return .i32 (.ofInt (← treeInteger "i32" Int32.minValue.toInt Int32.maxValue.toInt tree))
  | .i64 => do
    return .i64 (.ofInt (← treeInteger "i64" Int64.minValue.toInt Int64.maxValue.toInt tree))
  | .f64 => do return .f64 (← treeFloat tree)

/-- The two members of a scalar. -/
inductive Part
  | type
  | value
deriving DecidableEq

/-- The name of a part. -/
def Part.name : Part → String
  | type => "type"
  | value => "value"

/-- The next member that belongs to a scalar; others are passed over. -/
def nextPartFrom : Nat → Bool → Reader (Option Part)
  | 0, _ => Reader.refuse .truncated
  | fuel + 1, first => do
    match ← Reader.nextName first with
    | none => return none
    | some name =>
      if name = Part.type.name then return some .type
      else if name = Part.value.name then return some .value
      else
        Reader.colon
        Reader.ignored
        nextPartFrom fuel false

/-- The next member that belongs to a scalar, up to its colon. -/
def nextPart (first : Bool) : Reader (Option Part) := fun text =>
  nextPartFrom (text.length + 1) first text

/-- The end of the object of a scalar, of which nothing may come twice. -/
def close (scalar : Scalar) : Reader Scalar := do
  match ← nextPart false with
  | some part => Reader.complain (.duplicateField part.name)
  | none =>
    Reader.closeObject
    return scalar

/-- The rest of the object of a scalar whose type came first. -/
def readTypeFirst : Reader Scalar := do
  Reader.colon
  let type ← ScalarType.codec.read
  match ← nextPart false with
  | none => Reader.complain (.missingField Part.value.name)
  | some .type => Reader.complain (.duplicateField Part.type.name)
  | some .value =>
    Reader.colon
    close (← readValue type)

/-- The rest of the object of a scalar whose value came first. -/
def readValueFirst : Reader Scalar := do
  Reader.colon
  let tree ← readTree nestingLimit
  match ← nextPart false with
  | none => Reader.complain (.missingField Part.type.name)
  | some .value => Reader.complain (.duplicateField Part.value.name)
  | some .type =>
    Reader.colon
    match ofTree tree (← ScalarType.codec.read) with
    | .ok scalar => close scalar
    | .error complaint => Reader.complain complaint

/-- The object of a scalar, after its opening brace. -/
def readObject : Reader Scalar := do
  match ← nextPart true with
  | none => Reader.complain (.missingField Part.type.name)
  | some .type => readTypeFirst
  | some .value => readValueFirst

/-- The list of type and value of a scalar, after its opening bracket. -/
def readList : Reader Scalar := do
  if ← Reader.nextItem true then
    let type ← Reader.named ScalarType.table
    if ← Reader.nextItem false then
      let scalar ← readValue type
      Reader.closeList
      return scalar
    else Reader.complain (.wrongLength 1 expectation)
  else Reader.complain (.wrongLength 0 expectation)

/-- Reads a scalar from an object or a list of its two parts. -/
def read : Reader Scalar := fun text =>
  match skipBlanks text with
  | [] => .error .truncated
  | '\x7b' :: rest => readObject rest
  | '[' :: rest => readList rest
  | text => Reader.mismatch expectation text

/-- The value of a scalar, without its type. -/
def valueTree : Scalar → Json
  | i32 value => .integer value.toInt
  | i64 value => .integer value.toInt
  | f64 value => .float value

/-- Scalars in JSON, as objects that name their type first. -/
def codec : Codec Scalar where
  read := read
  write := fun scalar =>
    .object [(Part.type.name, .string scalar.type.name), (Part.value.name, scalar.valueTree)]

end Scalar

end TableKernels
