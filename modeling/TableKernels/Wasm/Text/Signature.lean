import TableKernels.Wasm.Text.Names

/-!
# Signatures in the text of a module

A function says its type by reference, by listing parameters and results, or both, in which case
they must agree. Parameters and locals may have names; those without one may share a list.
-/

namespace TableKernels.Wasm.Text

/-- Values that a list declares: one with a name or a title, or any number without. -/
def parseDeclared (items : List Tree) : Option (List (Option String × ValType)) := do
  let (name, types) ← Parse.name? items
  let (titled, types) ← Parse.title types
  if name.isNone && !titled then types.mapM fun tree => (parseValType tree).map (none, ·)
  else
    match types with
    | [type] => (parseValType type).map fun type => [(name, type)]
    | _ => none

/-- The values that all lists in a row declare which begin with a given word. -/
def Parse.declarations (letters : String) : Parse (List (Option String × ValType)) := do
  let groups ← given ((← Parse.lists letters).mapM parseDeclared)
  return groups.flatten

/-- Parameters, with their names, and results. -/
structure Signature where
  params : List (Option String × ValType)
  results : List ValType

namespace Signature

/-- Neither parameters nor results. -/
def empty : Signature := ⟨[], []⟩

/-- The type of a function with the signature. -/
def type (signature : Signature) : FuncType :=
  ⟨signature.params.map (·.2), signature.results⟩

/-- The signature with what a list adds, if it lists parameters or results. -/
def add? (signature : Signature) : Tree → Option (Option Signature)
  | .list (.word "param" :: items) =>
    if signature.results.isEmpty then
      (parseDeclared items).map fun params =>
        some { signature with params := signature.params ++ params }
    else none
  | .list (.word "result" :: items) =>
    (items.mapM parseValType).map fun results =>
      some { signature with results := signature.results ++ results }
  | _ => some none

/-- A signature with what all lists in a row add; there are no parameters behind a result. -/
def parseFrom (signature : Signature) : Parse Signature
  | [] => some (signature, [])
  | tree :: rest =>
    match signature.add? tree with
    | some (some signature) => parseFrom signature rest
    | some none => some (signature, tree :: rest)
    | none => none

/-- Takes parameters and results. -/
def parse : Parse Signature := empty.parseFrom

/-- Whether parameters or results come next. -/
def isNext : List Tree → Bool
  | .list (.word letters :: _) :: _ => letters = "param" || letters = "result"
  | _ => false

end Signature

/-- What is written about the type of a function. -/
structure TypeUse where
  index : Option UInt32
  /-- The signature, if any list of it is written, even one of nothing. -/
  signature : Option Signature

namespace TypeUse

/-- Takes an index of a type, a signature, or both. -/
def parse (names : Names) : Parse TypeUse := do
  let index ← match ← Parse.listOf? "type" with
    | none => pure none
    | some items => do
      pure (some (← Parse.given (Parse.whole (Parse.reference names.types) items)))
  if Signature.isNext (← get) then return ⟨index, some (← Signature.parse)⟩
  else return ⟨index, none⟩

/-- The function type that a use spells out. -/
def type (use : TypeUse) : FuncType := (use.signature.getD .empty).type

/-- The types of a module after the use: a type that is only listed is added unless it is there. -/
def extend (use : TypeUse) (types : List FuncType) : List FuncType :=
  if use.index.isNone && !types.contains use.type then types ++ [use.type] else types

/-- Whether what is written beside a reference agrees with the type that it refers to. -/
def agrees (use : TypeUse) (types : List FuncType) (index : UInt32) : Bool :=
  use.signature.all fun signature => types[index.toNat]?.all (· = signature.type)

/-- The index of the type. -/
def resolve? (use : TypeUse) (types : List FuncType) : Option UInt32 :=
  match use.index with
  | none =>
    if types.contains use.type then some (UInt32.ofNat (types.idxOf use.type)) else none
  | some index => if use.agrees types index then some index else none

/-- The names of the parameters: without a list of them there are none. -/
def paramNames (use : TypeUse) (types : List FuncType) : NameList :=
  match use.signature, use.index with
  | some signature, _ => signature.params.map (·.1)
  | none, some index =>
    ((types[index.toNat]?).map fun type => type.params.map fun _ => none).getD []
  | none, none => []

end TypeUse

end TableKernels.Wasm.Text
