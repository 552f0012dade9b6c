import TableKernels.Json.Skip

/-!
# Readers

A `Reader` takes a value from the head of a text and leaves the rest. The first fault met in reading
order wins: a token of the wrong type is refused as soon as it was read, whatever follows it.
`Reader.run` reads a whole text.
-/

namespace TableKernels.Json

/-- Takes a value from the head of a text. -/
abbrev Reader (α : Type) : Type := List Char → Except Fault (α × List Char)

namespace Reader

/-- Reads nothing. -/
def pure {α : Type} (value : α) : Reader α := fun text => .ok (value, text)

/-- Goes on with what was read. -/
def bind {α β : Type} (first : Reader α) (next : α → Reader β) : Reader β := fun text =>
  match first text with
  | .ok (value, rest) => next value rest
  | .error fault => .error fault

instance : Monad Reader where
  pure := Reader.pure
  bind := Reader.bind

/-- Ends with a fault. -/
def refuse {α : Type} (fault : Fault) : Reader α := fun _ => .error fault

/-- Ends with a complaint about content. -/
def complain {α : Type} (complaint : Complaint) : Reader α := refuse (.content complaint)

/-- A value read in full, with nothing but blanks after it. -/
def run {α : Type} (reader : Reader α) (text : String) : Except Fault α := do
  let (value, rest) ← reader text.toList
  match skipBlanks rest with
  | [] => .ok value
  | _ :: _ => .error .malformed

/-- Passes over a word after its first letter. -/
def word {α : Type} (letters : List Char) (value : α) : Reader α := fun text =>
  (expectWord letters text).map (value, ·)

/-- The rest of a null after its first letter. -/
def nullRest {α : Type} (value : α) : Reader α := word ['u', 'l', 'l'] value

/-- Refuses the token at the head of a text, which has no leading blanks, as the wrong type. -/
def mismatch {α : Type} (expected : String) : Reader α := fun text =>
  let wrong := fun found => Except.error (.content (.wrongType found expected))
  match text with
  | [] => .error .truncated
  | first :: rest =>
    if first = quote then
      match readQuoted rest with
      | .ok (value, _) => wrong (.string value)
      | .error fault => .error fault
    else if first = '-' ∨ isDigit first then
      match readNumeral text with
      | .ok (.integer value, _) => wrong (.integer value)
      | .ok (.float value, _) => wrong (.float value)
      | .error fault => .error fault
    else match first with
      | 'n' => (expectWord ['u', 'l', 'l'] rest).bind fun _ => wrong .null
      | 't' => (expectWord ['r', 'u', 'e'] rest).bind fun _ => wrong (.boolean true)
      | 'f' => (expectWord ['a', 'l', 's', 'e'] rest).bind fun _ => wrong (.boolean false)
      | '[' => wrong .sequence
      | '\x7b' => wrong .map
      | _ => .error .malformed

/-- A numeral, or a complaint about another token. -/
def numeral (expected : String) : Reader Numeral := fun text =>
  match skipBlanks text with
  | [] => .error .truncated
  | first :: rest =>
    if first = '-' ∨ isDigit first then readNumeral (first :: rest)
    else mismatch expected (first :: rest)

/-- Reads an integer within bounds. -/
def integer (expected : String) (least greatest : Int) : Reader Int := do
  match ← numeral expected with
  | .float value => complain (.wrongType (.float value) expected)
  | .integer value =>
    if least ≤ value ∧ value ≤ greatest then return value
    else complain (.outOfRange value expected)

/-- Reads a number as a float. -/
def float : Reader Binary64 := do
  match ← numeral "f64" with
  | .float value => return value
  | .integer value => return .ofInt value

/-- Reads a truth value. -/
def boolean : Reader Bool := fun text =>
  match skipBlanks text with
  | [] => .error .truncated
  | 't' :: rest => word ['r', 'u', 'e'] true rest
  | 'f' :: rest => word ['a', 'l', 's', 'e'] false rest
  | text => mismatch "a boolean" text

/-- A string, or a complaint about another token. -/
def stringFor (expected : String) : Reader String := fun text =>
  match skipBlanks text with
  | [] => .error .truncated
  | first :: rest => if first = quote then readQuoted rest else mismatch expected (first :: rest)

/-- Reads a string. -/
def string : Reader String := stringFor "a string"

/-- Null, or what another reader makes of anything else. -/
def optional {α : Type} (reader : Reader α) : Reader (Option α) := fun text =>
  match skipBlanks text with
  | 'n' :: rest => nullRest none rest
  | text => (reader text).map fun (value, rest) => (some value, rest)

/-- Where the next item of a list is, or that there is none; the closing bracket stays. -/
def nextItem (first : Bool) : Reader Bool := fun text =>
  match skipBlanks text with
  | [] => .error .truncated
  | ']' :: rest => .ok (false, ']' :: rest)
  | head :: rest =>
    if first then .ok (true, head :: rest)
    else if head = ',' then
      match skipBlanks rest with
      | [] => .error .truncated
      | ']' :: _ => .error .malformed
      | rest => .ok (true, rest)
    else .error .malformed

/-- The name of the next member, or that there is none; the closing brace stays. -/
def nextName (first : Bool) : Reader (Option String) := fun text =>
  let name := fun text => match text with
    | [] => Except.error Fault.truncated
    | head :: rest =>
      if head = quote then (readQuoted rest).map fun (name, rest) => (some name, rest)
      else .error .malformed
  match skipBlanks text with
  | [] => .error .truncated
  | '\x7d' :: rest => .ok (none, '\x7d' :: rest)
  | head :: rest =>
    if first then name (head :: rest)
    else if head = ',' then name (skipBlanks rest)
    else .error .malformed

/-- The colon after the name of a member. -/
def colon : Reader Unit := fun text =>
  match skipBlanks text with
  | [] => .error .truncated
  | ':' :: rest => .ok ((), rest)
  | _ => .error .malformed

/-- Reads the end of a list. -/
def closeList : Reader Unit := fun text =>
  match skipBlanks text with
  | [] => .error .truncated
  | ']' :: rest => .ok ((), rest)
  | _ => .error .malformed

/-- Reads the end of an object. -/
def closeObject : Reader Unit := fun text =>
  match skipBlanks text with
  | [] => .error .truncated
  | '\x7d' :: rest => .ok ((), rest)
  | _ => .error .malformed

/-- Passes over the value of a member that nobody asked for. -/
def ignored : Reader Unit := fun text => (skipValue text).map ((), ·)

/-- The items of a list up to its closing bracket; each step takes some text. -/
def itemsFrom {α : Type} (item : Reader α) : Nat → Bool → Reader (List α)
  | 0, _ => refuse .truncated
  | fuel + 1, first => do
    if ← nextItem first then
      let value ← item
      let values ← itemsFrom item fuel false
      return value :: values
    else return []

/-- The items of a list after its opening bracket, and the closing one. -/
def items {α : Type} (item : Reader α) : Reader (List α) := fun text =>
  (do
    let values ← itemsFrom item (text.length + 1) true
    closeList
    return values : Reader (List α)) text

/-- Reads a list. -/
def list {α : Type} (item : Reader α) : Reader (List α) := fun text =>
  match skipBlanks text with
  | [] => .error .truncated
  | '[' :: rest => items item rest
  | text => mismatch "a sequence" text

/-- The members of an object up to its closing brace; each step takes some text. -/
def membersFrom {σ : Type} (member : String → σ → Reader σ) : Nat → Bool → σ → Reader σ
  | 0, _, _ => refuse .truncated
  | fuel + 1, first, state => do
    match ← nextName first with
    | some name => membersFrom member fuel false (← member name state)
    | none => return state

/-- Goes through the members of an object after its opening brace; the closing one stays. -/
def members {σ : Type} (member : String → σ → Reader σ) (start : σ) : Reader σ := fun text =>
  membersFrom member (text.length + 1) true start text

/-- The value with a name. -/
def variant {α : Type} (table : List (String × α)) (name : String) : Reader α :=
  match table.lookup name with
  | some value => return value
  | none => complain (.unknownVariant name (table.map (·.1)))

/-- A name from a table, written as a string and nothing else. -/
def named {α : Type} (table : List (String × α)) : Reader α := do
  variant table (← stringFor "variant identifier")

/-- A name from a table: as a string, or as the one member of an object whose value is null. -/
def enumerated {α : Type} (table : List (String × α)) : Reader α := fun text =>
  match skipBlanks text with
  | [] => .error .truncated
  | '\x7b' :: rest =>
    (do
      match ← nextName true with
      | none => refuse .malformed
      | some name =>
        let value ← variant table name
        colon
        unit
        closeObject
        return value : Reader α) rest
  | first :: rest =>
    if first = quote then
      (do
        let name ← readQuoted
        variant table name : Reader α) rest
    else .error .malformed
where
  /-- A null. -/
  unit : Reader Unit := fun text =>
    match skipBlanks text with
    | [] => .error .truncated
    | 'n' :: rest => nullRest () rest
    | text => mismatch "unit" text

end Reader

end TableKernels.Json
