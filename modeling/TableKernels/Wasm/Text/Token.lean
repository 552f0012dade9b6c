import TableKernels.LittleEndian
import TableKernels.Text.Digit

/-!
# Tokens of the text of a module

A text is a row of parentheses and of runs, with blanks and comments between them. A run is made of
letters and strings that touch one another, and has a meaning if it is one word, one string, or a
mark before one of them: a dollar sign for a name, an at sign for the kind of an annotation. An
annotation of a kind that nobody reads is a remark. Characters that change the direction of the text
around them may not be written at all; a string spells them by their number.
-/

namespace TableKernels.Wasm.Text

/-- The smallest parts of a text. -/
inductive Token
  | opening
  | closing
  /-- The opening of a remark, together with its kind. -/
  | remark
  | word (letters : String)
  | name (letters : String)
  | note (kind : String)
  | string (content : Bytes)
  /-- What has no meaning, and so may only stand in a remark. -/
  | void
deriving DecidableEq

namespace Token

/-- Whether a character only separates tokens. -/
def isBlank (character : Char) : Bool :=
  character = ' ' || character = '\t' || character = '\n' || character = '\r'

/-- The printable characters that words are not made of. -/
def separators : List Char := ['\x22', '(', ')', ',', ';', '[', ']', '\x7b', '\x7d']

/-- Whether a character may stand in a word. -/
def isLetter (character : Char) : Bool :=
  0x21 ≤ character.toNat && character.toNat ≤ 0x7e && !separators.contains character

/-- A character that stands alone and has no meaning. -/
def isVoid (character : Char) : Bool :=
  separators.contains character && character ≠ '\x22' && character ≠ '(' && character ≠ ')'

/-- The characters that change the direction of the text around them, or the shapes of letters. -/
def misleading : List Nat :=
  [0x202a, 0x202b, 0x202d, 0x202e, 0x2066, 0x2067, 0x2068, 0x206c, 0x2069]

/-- A character that may be written. -/
def isPlain (character : Char) : Bool := !misleading.contains character.toNat

/-- What follows a comment up to the end of a line. -/
def skipLine : List Char → Option (List Char)
  | [] => some []
  | character :: rest =>
    if character = '\n' ∨ character = '\r' then some (character :: rest)
    else if isPlain character then skipLine rest else none

/-- What follows a block comment, nested so deep, after its opening. -/
def skipComment : Nat → List Char → Option (List Char)
  | _, [] => none
  | depth, ';' :: ')' :: rest =>
    match depth with
    | 0 => some rest
    | depth + 1 => skipComment depth rest
  | depth, '(' :: ';' :: rest => skipComment (depth + 1) rest
  | depth, character :: rest => if isPlain character then skipComment depth rest else none

/-- The bytes of a character. -/
def bytesOf (character : Char) : Bytes := (String.singleton character).toUTF8.toList

/--
The number of the hexadecimal digits up to a closing brace, and what follows the brace. Between the
digits there may be underscores; the flag says that the last character was one.
-/
def readNumber : Bool → Nat → List Char → Option (Nat × List Char)
  | afterMark, number, '\x7d' :: rest => if afterMark then none else some (number, rest)
  | _, number, '_' :: rest => readNumber true number rest
  | _, number, digit :: rest => do
    readNumber false (16 * number + (← Text.hexValue? digit)) rest
  | _, _, [] => none

/-- The bytes that an escape stands for, after its backslash. -/
def readEscape : List Char → Option (Bytes × List Char)
  | 't' :: rest => some ([0x09], rest)
  | 'n' :: rest => some ([0x0a], rest)
  | 'r' :: rest => some ([0x0d], rest)
  | '\x22' :: rest => some ([0x22], rest)
  | '\x27' :: rest => some ([0x27], rest)
  | '\x5c' :: rest => some ([0x5c], rest)
  | 'u' :: '\x7b' :: digit :: rest => do
    let (number, rest) ← readNumber false (← Text.hexValue? digit) rest
    if number < 0x110000 && !(0xd800 ≤ number && number ≤ 0xdfff) then
      pure (bytesOf (Char.ofNat number), rest)
    else none
  | high :: low :: rest => do
    pure ([UInt8.ofNat (16 * (← Text.hexValue? high) + (← Text.hexValue? low))], rest)
  | _ => none

/-- The bytes of a string after its opening quote and some bytes; each step takes a character. -/
def readString : Nat → Bytes → List Char → Option (Bytes × List Char)
  | 0, _, _ | _, _, [] => none
  | fuel + 1, before, character :: rest =>
    if character = '\x22' then some (before.reverse, rest)
    else if character = '\x5c' then
      match readEscape rest with
      | some (bytes, rest) => readString fuel (bytes.reverse ++ before) rest
      | none => none
    else if 0x20 ≤ character.toNat && character.toNat ≠ 0x7f && isPlain character then
      readString fuel ((bytesOf character).reverse ++ before) rest
    else none

/-- A part of a run. -/
inductive Piece
  | letters (letters : List Char)
  | string (content : Bytes)

/-- The parts of a run, and what follows it; each step takes a part. -/
def readRun : Nat → List Char → Option (List Piece × List Char)
  | 0, text => some ([], text)
  | _, [] => some ([], [])
  | fuel + 1, character :: rest =>
    if character = '\x22' then do
      let (content, rest) ← readString fuel [] rest
      let (pieces, rest) ← readRun fuel rest
      pure (.string content :: pieces, rest)
    else if isLetter character then do
      let letters := character :: rest.takeWhile isLetter
      let (pieces, rest) ← readRun fuel (rest.dropWhile isLetter)
      pure (.letters letters :: pieces, rest)
    else some ([], character :: rest)

/-- What a name or a kind spells that is written as a string. -/
def quoted? (content : Bytes) : Option String :=
  if content.isEmpty then none else String.fromUTF8? ⟨content.toArray⟩

/-- The token that pieces without a gap make up. -/
def ofPieces : List Piece → Token
  | [.string content] => string content
  | [.letters ['$'], .string content] => ((quoted? content).map name).getD void
  | [.letters ['@'], .string content] => ((quoted? content).map note).getD void
  | [.letters ('$' :: first :: rest)] => name (String.ofList (first :: rest))
  | [.letters ('@' :: first :: rest)] => note (String.ofList (first :: rest))
  | [.letters letters] => word (String.ofList letters)
  | _ => void

/-- The kinds of annotations that are read. -/
def kinds : List String :=
  ["custom", "producers", "name", "dylink.0", "metadata.code.branch_hint"]

/-- The tokens of an opening parenthesis and of a run that touches it, the latest first. -/
def openWith : Token → List Token
  | note kind => if kinds.contains kind then [note kind, opening] else [remark]
  | token => [token, opening]

/-- The tokens of a text after some others, the latest first; each step takes a character. -/
def readAllFrom : Nat → List Token → List Char → Option (List Token)
  | _, before, [] => some before
  | 0, _, _ :: _ => none
  | fuel + 1, before, ';' :: ';' :: rest =>
    match skipLine rest with
    | some rest => readAllFrom fuel before rest
    | none => none
  | fuel + 1, before, '(' :: ';' :: rest =>
    match skipComment 0 rest with
    | some rest => readAllFrom fuel before rest
    | none => none
  | fuel + 1, before, '(' :: '@' :: rest =>
    match readRun fuel ('@' :: rest) with
    | some (pieces, rest) => readAllFrom fuel (openWith (ofPieces pieces) ++ before) rest
    | none => none
  | fuel + 1, before, '(' :: rest => readAllFrom fuel (opening :: before) rest
  | fuel + 1, before, ')' :: rest => readAllFrom fuel (closing :: before) rest
  | fuel + 1, before, character :: rest =>
    if isBlank character then readAllFrom fuel before rest
    else if isVoid character then readAllFrom fuel (void :: before) rest
    else if character = '\x22' || isLetter character then
      match readRun (fuel + 1) (character :: rest) with
      | some (pieces, rest) => readAllFrom fuel (ofPieces pieces :: before) rest
      | none => none
    else none

/-- The tokens of a text. -/
def readAll? (text : String) : Option (List Token) :=
  (readAllFrom (text.length + 1) [] text.toList).map List.reverse

end Token

end TableKernels.Wasm.Text
