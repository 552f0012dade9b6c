import TableKernels.Decimal.Style

/-!
# JSON trees and their text

A `Json` tree has two written forms: `compact` without any blank, and `pretty` with one member per
line, two blanks per level and nothing between the brackets of an empty list. Inside strings only
quotes, backslashes and characters below the blank are escaped. A number that is not finite is
written as null.
-/

namespace TableKernels

/-- A JSON value; members keep their order. -/
inductive Json
  | null
  | boolean (value : Bool)
  | integer (value : Int)
  | float (value : Binary64)
  | string (value : String)
  | array (items : List Json)
  | object (members : List (String × Json))

namespace Json

/-- The quote around strings. -/
def quote : Char := '\x22'

/-- The character with which an escape begins. -/
def backslash : Char := '\x5c'

/-- The hexadecimal digit of a number below sixteen. -/
def hexDigit (value : Nat) : Char :=
  if value < 10 then Char.ofNat (48 + value) else Char.ofNat (87 + value)

/-- A character as it stands in a string. -/
def escape (character : Char) : List Char :=
  if character = quote then [backslash, quote]
  else if character = backslash then [backslash, backslash]
  else if character = '\x08' then [backslash, 'b']
  else if character = '\x0c' then [backslash, 'f']
  else if character = '\n' then [backslash, 'n']
  else if character = '\r' then [backslash, 'r']
  else if character = '\t' then [backslash, 't']
  else if character.toNat < 32 then
    [backslash, 'u', '0', '0', hexDigit (character.toNat / 16), hexDigit (character.toNat % 16)]
  else [character]

/-- A string in quotes. -/
def quoted (text : String) : List Char :=
  quote :: text.toList.flatMap escape ++ [quote]

/-- The text of an integer. -/
def integerText (value : Int) : List Char := (toString value).toList

/-- The text of a number; one that is not finite has none of its own. -/
def floatText (value : Binary64) : List Char :=
  if value.isFinite then (Decimal.Style.json.text value).toList else "null".toList

/-- The text of a truth value. -/
def booleanText (value : Bool) : List Char :=
  if value then "true".toList else "false".toList

mutual

/-- The text without blanks. -/
def compact : Json → List Char
  | null => "null".toList
  | boolean value => booleanText value
  | integer value => integerText value
  | float value => floatText value
  | string value => quoted value
  | array [] => ['[', ']']
  | array (item :: items) => '[' :: compact item ++ compactItems items
  | object [] => ['\x7b', '\x7d']
  | object ((name, value) :: members) =>
    '\x7b' :: quoted name ++ ':' :: compact value ++ compactMembers members

/-- The items after the first, up to the closing bracket. -/
def compactItems : List Json → List Char
  | [] => [']']
  | item :: items => ',' :: compact item ++ compactItems items

/-- The members after the first, up to the closing brace. -/
def compactMembers : List (String × Json) → List Char
  | [] => ['\x7d']
  | (name, value) :: members =>
    ',' :: quoted name ++ ':' :: compact value ++ compactMembers members

end

/-- A new line at a level of indentation. -/
def newline (level : Nat) : List Char := '\n' :: List.replicate (2 * level) ' '

mutual

/-- The text with one item or member per line, inside the given level. -/
def pretty (level : Nat) : Json → List Char
  | null => "null".toList
  | boolean value => booleanText value
  | integer value => integerText value
  | float value => floatText value
  | string value => quoted value
  | array [] => ['[', ']']
  | array (item :: items) =>
    '[' :: newline (level + 1) ++ pretty (level + 1) item ++ prettyItems level items
  | object [] => ['\x7b', '\x7d']
  | object ((name, value) :: members) =>
    '\x7b' :: newline (level + 1) ++ quoted name ++ ':' :: ' ' :: pretty (level + 1) value ++
      prettyMembers level members

/-- The items after the first, up to the closing bracket. -/
def prettyItems (level : Nat) : List Json → List Char
  | [] => newline level ++ [']']
  | item :: items =>
    ',' :: newline (level + 1) ++ pretty (level + 1) item ++ prettyItems level items

/-- The members after the first, up to the closing brace. -/
def prettyMembers (level : Nat) : List (String × Json) → List Char
  | [] => newline level ++ ['\x7d']
  | (name, value) :: members =>
    ',' :: newline (level + 1) ++ quoted name ++ ':' :: ' ' :: pretty (level + 1) value ++
      prettyMembers level members

end

/-- The text of a tree without blanks. -/
def compactText (json : Json) : String := String.ofList json.compact

/-- The text of a tree with a line for each part. -/
def prettyText (json : Json) : String := String.ofList (json.pretty 0)

/-- An optional value, null when it is absent. -/
def ofOption {α : Type} (encode : α → Json) : Option α → Json
  | none => null
  | some value => encode value

end Json

end TableKernels
