import TableKernels.Wasm.Text.Token

/-!
# Text as trees

Parentheses make trees of tokens. `Tree.read?` reads a text as trees in a row; what stands in a
remark is passed over, up to the parenthesis that closes it. A text without any token is no row of
trees, one of remarks alone is an empty row.
-/

namespace TableKernels.Wasm.Text

/-- A word, a name, the kind of an annotation, a string, or trees in parentheses. -/
inductive Tree
  | word (letters : String)
  | name (letters : String)
  | note (kind : String)
  | string (content : Bytes)
  | list (items : List Tree)

namespace Tree

mutual

/-- The number of tokens in a tree that do not close one. -/
def size : Tree → Nat
  | .word _ | .name _ | .note _ | .string _ => 1
  | .list items => sizeOfAll items + 1

/-- The number of tokens in trees that do not close one. -/
def sizeOfAll : List Tree → Nat
  | [] => 0
  | tree :: rest => tree.size + sizeOfAll rest

end

end Tree

/-- Trees being read: those of the innermost list and of the lists around it, latest first. -/
structure Nesting where
  items : List Tree
  outer : List (List Tree)
  /-- The number of parentheses that are open in a remark, its own included. -/
  skipped : Nat

namespace Nesting

/-- No tree was read. -/
def empty : Nesting := ⟨[], [], 0⟩

/-- The trees after one more tree in the innermost list. -/
def push (nesting : Nesting) (tree : Tree) : Nesting :=
  { nesting with items := tree :: nesting.items }

/-- The trees after one more token of a remark. -/
def skip (nesting : Nesting) : Token → Nesting
  | .opening | .remark => { nesting with skipped := nesting.skipped + 1 }
  | .closing => { nesting with skipped := nesting.skipped - 1 }
  | _ => nesting

/-- The nesting after one more token. -/
def add? (nesting : Nesting) (token : Token) : Option Nesting :=
  if nesting.skipped ≠ 0 then some (nesting.skip token)
  else
    match token with
    | .opening => some { nesting with items := [], outer := nesting.items :: nesting.outer }
    | .closing =>
      match nesting.outer with
      | [] => none
      | around :: outer =>
        some { nesting with items := .list nesting.items.reverse :: around, outer }
    | .remark => some (nesting.skip .remark)
    | .word letters => some (nesting.push (.word letters))
    | .name letters => some (nesting.push (.name letters))
    | .note kind => some (nesting.push (.note kind))
    | .string content => some (nesting.push (.string content))
    | .void => none

/-- The trees in a row, once all lists and remarks are closed. -/
def close? (nesting : Nesting) : Option (List Tree) :=
  if nesting.outer.isEmpty && nesting.skipped == 0 then some nesting.items.reverse else none

end Nesting

/-- The trees of a text, which must hold some token. -/
def Tree.read? (text : String) : Option (List Tree) := do
  let tokens ← Token.readAll? text
  if tokens.isEmpty then none
  (← tokens.foldlM Nesting.add? .empty).close?

end TableKernels.Wasm.Text
