import TableKernels.Wasm.Text.Content
import TableKernels.Wasm.Text.Code

/-!
# Storage in the text of a module

How memories, tables and globals are declared, and the segments that fill them. A segment turns into
bytes at once, since the place where it goes may be an expression of any instructions.
-/

namespace TableKernels.Wasm.Text

namespace Parse

/-- Whether addresses are declared to have 64 bits; nothing and `i32` mean 32. -/
def addressing : Parse Bool := do
  if ← keyword "i64" then return true
  let _ ← keyword "i32"
  return false

/-- The least and, if there is one, the greatest size of what is addressed so. -/
def limits (wide : Bool) : Parse (UInt64 × Option UInt64) := do
  let bound := if wide then 0x10000000000000000 else 0x100000000
  let least ← natural bound
  let greatest ← natural? bound
  return (UInt64.ofNat least, greatest.map UInt64.ofNat)

/-- Takes a memory type. -/
def memoryType : Parse MemoryType := do
  let wide ← addressing
  let (minPages, maxPages) ← limits wide
  finish
  return ⟨minPages, maxPages, wide, false, none⟩

/-- Takes a type of references. -/
def refType : Parse RefType := do given (parseRefType (← next))

/-- Takes a table type. -/
def tableType : Parse TableType := do
  let wide ← addressing
  let (min, max) ← limits wide
  let entries ← refType
  finish
  return ⟨entries, min, max, wide, false⟩

/-- Takes the type of a global. -/
def globalType : Parse GlobalType := do
  match ← next with
  | .list [.word "mut", type] => return ⟨← given (parseValType type), true, false⟩
  | type => return ⟨← given (parseValType type), false, false⟩

/--
The bytes of a constant expression in a list. A word may announce it; otherwise it is one folded
instruction.
-/
def constantIn (scope : CodeScope) (announcement : String) : Parse Bytes := do
  match ← next with
  | .list (.word letters :: items) =>
    given (if letters = announcement then parseCode scope items
      else parseFolded scope (.list (.word letters :: items)))
  | _ => refuse

/-- All references that remain, by number or name of a function. -/
def functions (names : Names) : Parse (List UInt32) := fun trees =>
  (trees.mapM fun tree => whole (reference names.functions) [tree]).map (·, [])

/-- The bytes of all references that remain, as constants. -/
def constants (scope : CodeScope) : Parse (List Bytes) := fun trees =>
  (trees.mapM fun tree => whole (constantIn scope "item") [tree]).map (·, [])

end Parse

/-- The references of a segment. -/
inductive References
  | functions (indices : List UInt32)
  /-- Constant expressions in bytes. -/
  | constants (type : RefType) (items : List Bytes)

namespace References

/-- The number of references. -/
def count : References → Nat
  | functions indices => indices.length
  | constants _ items => items.length

/-- The references of a segment; the word before functions may be left out if the flag says so. -/
def parse (scope : CodeScope) (bare : Bool) : Parse References := do
  if ← Parse.keyword "func" then return functions (← Parse.functions scope.program)
  match (← get).head?.bind parseRefType with
  | some _ => return constants (← Parse.refType) (← Parse.constants scope)
  | none =>
    Parse.require bare
    return functions (← Parse.functions scope.program)

/-- The references that stand in place of the limits of a table. -/
def parseInline (scope : CodeScope) (entries : RefType) : Parse References := do
  if (← get).head?.any (·.isList) then return constants entries (← Parse.constants scope)
  else return functions (← Parse.functions scope.program)

end References

/-- Where the content of a segment goes when the module starts. -/
inductive Destination
  /-- Into a memory or table, of which the first may be left out, from an address on. -/
  | active (index : Option UInt32) (offset : Bytes)
  | passive
  /-- The references may be taken, and nothing more. -/
  | declared

namespace Destination

/-- The written form of a segment of bytes. -/
def encodeData (destination : Destination) (content : Bytes) : Bytes :=
  (match destination with
    | active index offset =>
      if index.getD 0 = 0 then 0 :: offset else 2 :: encodeIndex (index.getD 0) ++ offset
    | passive | declared => [1]) ++ sized content

/-- The written form of a segment of references. -/
def encodeElements (destination : Destination) : References → Bytes
  | .functions indices =>
    (match destination with
      | active none offset => 0 :: offset
      | active (some table) offset => 2 :: encodeIndex table ++ offset ++ [0]
      | passive => [1, 0]
      | declared => [3, 0]) ++ vector encodeIndex indices
  | .constants type items =>
    let code := (ValType.ref type).code
    (match destination with
      | active table offset =>
        if table.isNone ∧ type = .func then 4 :: offset
        else 6 :: encodeIndex (table.getD 0) ++ offset ++ [code]
      | passive => [5, code]
      | declared => [7, code]) ++ vector id items

/-- A thing in a list after a word. -/
def listed? (kind : String) (list : NameList) : Parse (Option UInt32) := do
  match ← Parse.listOf? kind with
  | some items => return some (← Parse.given (Parse.whole (Parse.reference list) items))
  | none => return none

/-- A place in a memory, which is given by number, by name, in a list, or not at all. -/
def parseMemory (scope : CodeScope) : Parse Destination := do
  let list := scope.program.memories
  let index ← match ← listed? "memory" list with
    | some index => pure (some index)
    | none => do pure (some (← Parse.referenceOrFirst list))
  return active index (← Parse.constantIn scope "offset")

/--
A place in a table, which is given by number, in a list, or not at all. The flag says that it is not
in a list.
-/
def parseTable (scope : CodeScope) : Parse (Destination × Bool) := do
  let listed ← listed? "table" scope.program.tables
  let index ← match listed with
    | some index => pure (some index)
    | none => do pure ((← Parse.natural? 0x100000000).map UInt32.ofNat)
  return (active index (← Parse.constantIn scope "offset"), listed.isNone)

end Destination

end TableKernels.Wasm.Text
