import TableKernels.Json.Numeral
import TableKernels.Json.Quoted

/-!
# Passing over a value

The value of a member that nobody asked for only has to be well formed. `skipValue` keeps the open
brackets in a list, so it goes to any depth, and it does not look at what a numeral or an escape
stands for.
-/

namespace TableKernels.Json

/-- Whether a character only separates tokens. -/
def isBlank (character : Char) : Bool :=
  character == ' ' || character == '\n' || character == '\r' || character == '\t'

/-- The text from its first character that is no blank. -/
def skipBlanks (text : List Char) : List Char := text.dropWhile isBlank

/-- Passes over a word that was recognised by its first letter. -/
def expectWord : List Char → List Char → Except Fault (List Char)
  | [], text => .ok text
  | _ :: _, [] => .error .truncated
  | letter :: letters, first :: rest =>
    if first = letter then expectWord letters rest else .error .malformed

/-- Passes over at least one digit, whatever else is there. -/
def skipDigits (text : List Char) : Except Fault (List Char) :=
  match text with
  | first :: rest =>
    if isDigit first then .ok (rest.dropWhile isDigit) else .error .malformed
  -- Here the end of the text counts as a wrong character.
  | [] => .error .malformed

/-- Passes over the digits before the point. -/
def skipWhole (text : List Char) : Except Fault (List Char) :=
  match text with
  | '0' :: next :: rest => if isDigit next then .error .malformed else .ok (next :: rest)
  | text => skipDigits text

/-- Passes over a power of ten, if there is one. -/
def skipPower (text : List Char) : Except Fault (List Char) :=
  match text with
  | 'e' :: '+' :: rest | 'E' :: '+' :: rest | 'e' :: '-' :: rest | 'E' :: '-' :: rest =>
    skipDigits rest
  | 'e' :: rest | 'E' :: rest => skipDigits rest
  | text => .ok text

/-- Passes over a numeral after its sign. -/
def skipNumeral (text : List Char) : Except Fault (List Char) := do
  match ← skipWhole text with
  | '.' :: rest => skipPower (← skipDigits rest)
  | rest => skipPower rest

/-- An open bracket. -/
inductive Bracket
  | list
  | members
deriving DecidableEq

/-- Passes over the name of a member and its colon. -/
def skipName (text : List Char) : Except Fault (List Char) := do
  match skipBlanks text with
  | [] => throw .truncated
  | first :: rest =>
    if first ≠ quote then throw .malformed
    match skipBlanks (← skipQuoted rest) with
    | [] => throw .truncated
    | ':' :: rest => pure rest
    | _ => throw .malformed

/-- A value without parts at the head of a text, or the bracket that opens one with parts. -/
def skipScalar (text : List Char) : Except Fault (Option Bracket × List Char) := do
  match text with
  | [] => throw .truncated
  | first :: rest =>
    if first = quote then return (none, ← skipQuoted rest)
    match first with
    | 'n' => return (none, ← expectWord ['u', 'l', 'l'] rest)
    | 't' => return (none, ← expectWord ['r', 'u', 'e'] rest)
    | 'f' => return (none, ← expectWord ['a', 'l', 's', 'e'] rest)
    | '-' => return (none, ← skipNumeral rest)
    | '[' => return (some .list, rest)
    | '\x7b' => return (some .members, rest)
    | _ => if isDigit first then return (none, ← skipNumeral text) else throw .malformed

/-- The brackets still open after those that close at the head of a text. -/
def closeBrackets : Nat → List Bracket → List Char → List Bracket × List Char
  | 0, brackets, text => (brackets, text)
  | fuel + 1, brackets, text =>
    match brackets, skipBlanks text with
    | .list :: outer, ']' :: rest => closeBrackets fuel outer rest
    | .members :: outer, '\x7d' :: rest => closeBrackets fuel outer rest
    | brackets, text => (brackets, text)

/-- Passes over what stands between two values inside brackets: a comma, and a name for a member. -/
def skipSeparator (bracket : Bracket) (text : List Char) : Except Fault (List Char) :=
  match text with
  | [] => .error .truncated
  | ',' :: rest => if bracket = .members then skipName rest else .ok rest
  | _ => .error .malformed

/-- Passes over a value inside the given open brackets, and over all that they enclose. -/
def skipFrom : Nat → List Bracket → List Char → Except Fault (List Char)
  | 0, _, _ => .error .truncated
  | fuel + 1, brackets, text => do
    let (opened, rest) ← skipScalar (skipBlanks text)
    match opened with
    | some .list =>
      match skipBlanks rest with
      | ']' :: rest => leave fuel brackets rest
      | rest => skipFrom fuel (.list :: brackets) rest
    | some .members =>
      match skipBlanks rest with
      | '\x7d' :: rest => leave fuel brackets rest
      | rest => skipFrom fuel (.members :: brackets) (← skipName rest)
    | none => leave fuel brackets rest
where
  /-- Goes on after a value: closes brackets, and takes the next value of the innermost open one. -/
  leave (fuel : Nat) (brackets : List Bracket) (text : List Char) : Except Fault (List Char) := do
    match closeBrackets (brackets.length + 1) brackets text with
    | ([], rest) => pure rest
    | (bracket :: outer, rest) =>
      skipFrom fuel (bracket :: outer) (← skipSeparator bracket rest)

/-- Passes over one value of any shape and depth. -/
def skipValue (text : List Char) : Except Fault (List Char) :=
  skipFrom (text.length + 1) [] text

end TableKernels.Json
