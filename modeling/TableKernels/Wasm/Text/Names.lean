import TableKernels.Wasm.Text.Numeral
import TableKernels.Wasm.Text.Tree
import TableKernels.Wasm.Types

/-!
# Names in the text of a module

Things that a module numbers may have names in its text. A reference is a number or a name. `Names`
holds the names of everything in the order of the numbers. Behind its name a thing may have a title,
in an annotation, which has no meaning but must be text.
-/

namespace TableKernels.Wasm.Text

/-- What remains to be read of a list. -/
abbrev Parse (α : Type) : Type := StateT (List Tree) Option α

/-- A name, or none, for each thing of a kind in order. -/
abbrev NameList : Type := List (Option String)

namespace Parse

/-- Takes nothing at all. -/
def refuse {α : Type} : Parse α := fun _ => none

/-- Goes on under a condition only. -/
def require (condition : Bool) : Parse Unit := if condition then pure () else refuse

/-- The next tree. -/
def next : Parse Tree := fun trees =>
  match trees with
  | [] => none
  | tree :: rest => some (tree, rest)

/-- Nothing may remain. -/
def finish : Parse Unit := fun trees => if trees.isEmpty then some ((), []) else none

/-- A name, if one comes next. -/
def name? : Parse (Option String) := fun trees =>
  match trees with
  | .name letters :: rest => some (some letters, rest)
  | trees => some (none, trees)

/-- Whether a given word comes next, which is then taken. -/
def keyword (letters : String) : Parse Bool := fun trees =>
  match trees with
  | .word found :: rest =>
    if found = letters then some (true, rest) else some (false, .word found :: rest)
  | trees => some (false, trees)

/-- The items of a list that comes next and begins with a given word, without the word. -/
def listOf? (letters : String) : Parse (Option (List Tree)) := fun trees =>
  match trees with
  | .list (.word found :: items) :: rest =>
    if found = letters then some (some items, rest)
    else some (none, .list (.word found :: items) :: rest)
  | trees => some (none, trees)

/-- What a reader takes from all of a list. -/
def whole {α : Type} (parse : Parse α) (trees : List Tree) : Option α :=
  match parse trees with
  | some (value, []) => some value
  | _ => none

/-- What is there, or nothing is read. -/
def given {α : Type} : Option α → Parse α
  | some value => pure value
  | none => refuse

/-- The items of all lists that come next and begin with a given word. -/
def listsOf (letters : String) : Nat → Parse (List (List Tree))
  | 0 => pure []
  | fuel + 1 => do
    match ← listOf? letters with
    | none => pure []
    | some items => return items :: (← listsOf letters fuel)

/-- The items of all lists in a row that begin with a given word. -/
def lists (letters : String) : Parse (List (List Tree)) := fun trees =>
  listsOf letters trees.length trees

/-- Takes a string, in bytes. -/
def string : Parse Bytes := do
  match ← next with
  | .string content => return content
  | _ => refuse

/-- Takes a string that is text. -/
def text : Parse String := do given (String.fromUTF8? ⟨(← string).toArray⟩)

/-- Whether a title comes next, which is then taken. -/
def title : Parse Bool := fun trees =>
  match trees with
  | .list [.note "name", .string content] :: rest =>
    (String.fromUTF8? ⟨content.toArray⟩).map fun _ => (true, rest)
  | trees => some (false, trees)

/-- A name, if one comes next, and the title behind it or in its place. -/
def titled : Parse (Option String) := do
  let name ← name?
  let _ ← title
  return name

/-- Takes all strings that are left, joined. -/
def strings : Parse Bytes := fun trees =>
  (trees.foldrM (fun tree content =>
    match tree with
    | Tree.string more => some (more ++ content)
    | _ => none) []).map (·, [])

/-- Takes a natural number below a limit. -/
def natural (limit : Nat) : Parse Nat := do
  match ← next with
  | .word letters =>
    let number ← given (Numeral.natural? letters.toList)
    require (number < limit)
    return number
  | _ => refuse

/-- A number below a limit, if one comes next. -/
def natural? (limit : Nat) : Parse (Option Nat) := fun trees =>
  match natural limit trees with
  | some (number, rest) => some (some number, rest)
  | none => some (none, trees)

/-- A reference to one of several things by number or name. -/
def reference (names : NameList) : Parse UInt32 := do
  match ← name? with
  | none => return UInt32.ofNat (← natural 0x100000000)
  | some name =>
    require (names.contains (some name))
    return UInt32.ofNat (names.idxOf (some name))

/-- A reference, if one comes next, and otherwise the first thing. -/
def referenceOrFirst (names : NameList) : Parse UInt32 := fun trees =>
  match reference names trees with
  | some found => some found
  | none => some (0, trees)

end Parse

/-- The names of what a module numbers. -/
structure Names where
  types : NameList
  functions : NameList
  tables : NameList
  memories : NameList
  globals : NameList
  elements : NameList
  data : NameList

namespace Names

/-- The names of things of all kinds, where a word announces the kind of each. -/
def ofList (things : List (String × Option String)) : Names where
  types := named "type"
  functions := named "func"
  tables := named "table"
  memories := named "memory"
  globals := named "global"
  elements := named "elem"
  data := named "data"
where
  /-- The names of the things of a kind. -/
  named (kind : String) : NameList := (things.filter (·.1 = kind)).map (·.2)

/-- Whether no two things of a kind have the same name. -/
def areDistinct (names : Names) : Bool :=
  [names.types, names.functions, names.tables, names.memories, names.globals, names.elements,
    names.data].all fun list => (list.filterMap id).Nodup

end Names

/-- The type of a reference. -/
def parseRefType : Tree → Option RefType
  | .word "funcref" | .word "anyfunc" => some .func
  | .word "externref" => some .host
  | .list [.word "ref", .word "null", .word "func"] => some .func
  | .list [.word "ref", .word "null", .word "extern"] => some .host
  | _ => none

/-- The type that a tree names. -/
def parseValType : Tree → Option ValType
  | .word "i32" => some .i32
  | .word "i64" => some .i64
  | .word "f32" => some .f32
  | .word "f64" => some .f64
  | tree => (parseRefType tree).map .ref

end TableKernels.Wasm.Text
