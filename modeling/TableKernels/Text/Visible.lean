import TableKernels.Text.Extender
import TableKernels.Text.Unprintable

/-!
# Text shown without doubt

`quoteVisibly` writes a text between quotes so that every character of it can be seen for what it
is. Quotes, backslashes and the common controls have escapes of two characters; a character that
leaves no mark, or that would join the one before it, is written by its number.
-/

namespace TableKernels.Text

/-- A character as an escape that gives its number. -/
def numberEscape (character : Char) : List Char :=
  ['\x5c', 'u', '\x7b'] ++ Nat.toDigits 16 character.toNat ++ ['\x7d']

/-- A character so that it can be seen for what it is. -/
def visibleForm (character : Char) : List Char :=
  match character with
  | '\x00' => ['\x5c', '0']
  | '\t' => ['\x5c', 't']
  | '\r' => ['\x5c', 'r']
  | '\n' => ['\x5c', 'n']
  | '\x22' => ['\x5c', '\x22']
  | '\x5c' => ['\x5c', '\x5c']
  | _ =>
    if isExtender character || isUnprintable character then numberEscape character
    else [character]

/-- A text between quotes with every character visible. -/
def quoteVisibly (text : String) : String :=
  String.ofList (['\x22'] ++ text.toList.flatMap visibleForm ++ ['\x22'])

end TableKernels.Text
