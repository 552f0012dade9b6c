import TableKernels.Json.Tree
import TableKernels.Text.Visible

/-!
# Faults of a JSON text

A text is refused because it is not JSON, because it ends too early, or because its content is not
what was asked for. Only a fault of content has a message; `Complaint` lists the causes and
`Complaint.message` words them.
-/

namespace TableKernels.Json

/-- What a reader met where it wanted something else. -/
inductive Found
  | null
  | boolean (value : Bool)
  | integer (value : Int)
  | float (value : Binary64)
  | string (value : String)
  | sequence
  | map
deriving DecidableEq

/-- The text of what was found. -/
def Found.text : Found → String
  | null => "null"
  | boolean value => "boolean `" ++ String.ofList (booleanText value) ++ "`"
  | integer value => "integer `" ++ toString value ++ "`"
  | float value => "floating point `" ++ String.ofList (floatText value) ++ "`"
  | string value => "string " ++ Text.quoteVisibly value
  | sequence => "sequence"
  | map => "map"

/-- What is wrong with the content of a text. -/
inductive Complaint
  | wrongType (found : Found) (expected : String)
  | outOfRange (value : Int) (expected : String)
  | wrongLength (length : Nat) (expected : String)
  | missingField (name : String)
  | duplicateField (name : String)
  | unknownField (name : String) (known : List String)
  | unknownVariant (name : String) (known : List String)
deriving DecidableEq

/-- Names in a row, each in quotes. -/
def listed (names : List String) : String :=
  ", ".intercalate (names.map fun name => "`" ++ name ++ "`")

/-- The text of a complaint. -/
def Complaint.message : Complaint → String
  | wrongType found expected => "invalid type: " ++ found.text ++ ", expected " ++ expected
  | outOfRange value expected =>
    "invalid value: integer `" ++ toString value ++ "`, expected " ++ expected
  | wrongLength length expected =>
    "invalid length " ++ toString length ++ ", expected " ++ expected
  | missingField name => "missing field `" ++ name ++ "`"
  | duplicateField name => "duplicate field `" ++ name ++ "`"
  | unknownField name known =>
    "unknown field `" ++ name ++ "`, expected one of " ++ listed known
  | unknownVariant name known =>
    "unknown variant `" ++ name ++ "`, expected one of " ++ listed known

/-- Why a text is refused. -/
inductive Fault
  /-- The text is not JSON. -/
  | malformed
  /-- The text ends before the value does. -/
  | truncated
  /-- The content is not what was asked for. -/
  | content (complaint : Complaint)
deriving DecidableEq

end TableKernels.Json
