import TableKernels.Json.Fault
import TableKernels.Text.Digit

/-!
# Quoted strings

`readQuoted` reads a string after its opening quote and undoes the escapes; a character outside the
first plane is written as two escapes, and half of such a pair alone is refused. `skipQuoted` passes
over a string without asking what its escapes stand for, so it accepts lone halves.
-/

namespace TableKernels.Json

/-- The unit that four digits in sixteens spell. -/
def hexUnit? (first second third fourth : Char) : Option Nat := do
  let a ← Text.hexValue? first
  let b ← Text.hexValue? second
  let c ← Text.hexValue? third
  let d ← Text.hexValue? fourth
  pure (((a * 16 + b) * 16 + c) * 16 + d)

/-- The four hexadecimal digits at the head of a text; fewer than four bytes end early. -/
def readUnit (text : List Char) : Except Fault (Nat × List Char) :=
  match text with
  | first :: second :: third :: fourth :: rest =>
    match hexUnit? first second third fourth with
    | some unit => .ok (unit, rest)
    | none => .error .malformed
  | short =>
    let bytes := short.foldl (fun total character => total + character.utf8Size) 0
    if bytes < 4 then .error .truncated else .error .malformed

/-- Whether a unit is the first half of a pair. -/
def isLeading (unit : Nat) : Bool := 0xd800 ≤ unit && unit ≤ 0xdbff

/-- Whether a unit is the second half of a pair. -/
def isTrailing (unit : Nat) : Bool := 0xdc00 ≤ unit && unit ≤ 0xdfff

/-- The second escape of a pair whose first half was read. -/
def readTrailing (leading : Nat) (text : List Char) : Except Fault (Char × List Char) := do
  match text with
  | [] => throw .truncated
  | '\x5c' :: [] => throw .truncated
  | '\x5c' :: 'u' :: rest =>
    let (trailing, rest) ← readUnit rest
    if isTrailing trailing then
      pure (Char.ofNat (0x10000 + (leading - 0xd800) * 0x400 + (trailing - 0xdc00)), rest)
    else throw .malformed
  | _ => throw .malformed

/-- Reads a character that is given by one unit or a pair. -/
def readUnicode (text : List Char) : Except Fault (Char × List Char) := do
  let (unit, rest) ← readUnit text
  if isTrailing unit then throw .malformed
  else if isLeading unit then readTrailing unit rest
  else pure (Char.ofNat unit, rest)

/-- The character that an escape of one letter stands for. -/
def plainEscape? (letter : Char) : Option Char :=
  if letter = quote then some quote
  else if letter = backslash then some backslash
  else match letter with
    | '/' => some '/'
    | 'b' => some '\x08'
    | 'f' => some '\x0c'
    | 'n' => some '\n'
    | 'r' => some '\r'
    | 't' => some '\t'
    | _ => none

/-- The character of an escape, after its backslash. -/
def readEscape (text : List Char) : Except Fault (Char × List Char) :=
  match text with
  | [] => .error .truncated
  | letter :: rest =>
    match plainEscape? letter with
    | some character => .ok (character, rest)
    | none => if letter = 'u' then readUnicode rest else .error .malformed

/-- Passes over an escape; pairs are not checked. -/
def skipEscape (text : List Char) : Except Fault (List Char) :=
  match text with
  | [] => .error .truncated
  | letter :: rest =>
    if (plainEscape? letter).isSome then .ok rest
    else if letter = 'u' then (readUnit rest).map (·.2)
    else .error .malformed

/-- Gathers characters up to the closing quote, the latest first; each step takes some text. -/
def readQuotedFrom : Nat → List Char → List Char → Except Fault (List Char × List Char)
  | 0, _, _ => .error .truncated
  | _ + 1, _, [] => .error .truncated
  | fuel + 1, gathered, first :: rest =>
    if first = quote then .ok (gathered, rest)
    else if first = backslash then
      match readEscape rest with
      | .ok (character, rest) => readQuotedFrom fuel (character :: gathered) rest
      | .error fault => .error fault
    else if first.toNat < 32 then .error .malformed
    else readQuotedFrom fuel (first :: gathered) rest

/-- Reads a string whose opening quote was read. -/
def readQuoted (text : List Char) : Except Fault (String × List Char) :=
  (readQuotedFrom (text.length + 1) [] text).map fun (gathered, rest) =>
    (String.ofList gathered.reverse, rest)

/-- Passes over characters up to the closing quote; each step takes some text. -/
def skipQuotedFrom : Nat → List Char → Except Fault (List Char)
  | 0, _ => .error .truncated
  | _ + 1, [] => .error .truncated
  | fuel + 1, first :: rest =>
    if first = quote then .ok rest
    else if first = backslash then
      match skipEscape rest with
      | .ok rest => skipQuotedFrom fuel rest
      | .error fault => .error fault
    else if first.toNat < 32 then .error .malformed
    else skipQuotedFrom fuel rest

/-- Passes over a string up to its closing quote. -/
def skipQuoted (text : List Char) : Except Fault (List Char) :=
  skipQuotedFrom (text.length + 1) text

end TableKernels.Json
