import TableKernels.Proofs.Wasm.Reading.Operations
import TableKernels.Wasm.Text.Code

/-!
# Names of instructions

An instruction is told by its name, so no name may be that of two instructions. Names are told as
well from whatever may stand behind an instruction: numbers, settings and types.
-/

namespace TableKernels.Wasm.Text

/-- Whether a word is none of those that an instruction in front of it takes as its own. -/
def isHead (letters : String) : Bool :=
  (Numeral.natural? letters.toList).isNone && !"offset=".toList.isPrefixOf letters.toList &&
    !"align=".toList.isPrefixOf letters.toList && letters != "type" && letters != "param" &&
    letters != "result"

/-- The names of the instructions that steer control. -/
def controlNames : List String :=
  ["block", "loop", "if", "else", "end", "br", "br_if", "br_table", "unreachable", "return", "call",
    "call_indirect", "return_call", "return_call_indirect"]

/-- The names of the plain instructions that are in no list of their own. -/
def plainNames : List String :=
  ["nop", "drop", "select", "local.get", "local.set", "local.tee", "global.get", "global.set",
    "table.get", "table.set", "memory.size", "memory.grow", "memory.init", "data.drop",
    "memory.copy", "memory.fill", "table.init", "elem.drop", "table.copy", "table.grow",
    "table.size", "table.fill", "i32.const", "i64.const", "f32.const", "f64.const", "ref.null",
    "ref.is_null", "ref.func"]

/-- What begins no name of a constant, a load or a save behind the type of its number. -/
def isOwnName : List Char → Bool
  | 'l' :: 'o' :: _ | 's' :: 't' :: _ | 'c' :: 'o' :: 'n' :: 's' :: _ => false
  | _ => true

/-- Whether a name is made like that of an operator, and like no other name. -/
def isOperatorLike : List Char → Bool
  | 'i' :: '3' :: '2' :: '.' :: name | 'i' :: '6' :: '4' :: '.' :: name
  | 'f' :: '3' :: '2' :: '.' :: name | 'f' :: '6' :: '4' :: '.' :: name => isOwnName name
  | _ => false

/-- All operators. -/
def operators : List Operator := Operator.listed ++ Operator.saturations

theorem mem_operators (operator : Operator) : operator ∈ operators :=
  List.mem_append.mpr operator.listed_or_saturates

theorem operators_nodup : (operators.map (·.name)).Nodup := by
  have distinct : decide (operators.map (·.name)).Nodup = true := by
    cbv
  exact of_decide_eq_true distinct

theorem isOperatorLike_name (operator : Operator) :
    isOperatorLike operator.name.toList = true := by
  have all : operators.all (fun operator => isOperatorLike operator.name.toList) = true := by
    cbv
  exact List.all_eq_true.mp all operator (mem_operators operator)

theorem find?_operators (operator : Operator) :
    operators.find? (·.name = operator.name) = some operator := by
  have present := mem_operators operator
  -- Whatever operator is found first has the same name, so it is the same operator.
  cases found : operators.find? (·.name = operator.name) with
  | none =>
    have differs := List.find?_eq_none.mp found operator present
    exact absurd (decide_eq_true rfl) differs
  | some other =>
    have same : other.name = operator.name := by
      simpa using List.find?_some found
    rw [List.inj_on_of_nodup_map operators_nodup (List.mem_of_find?_eq_some found) present same]

theorem name_ne {name : String} (operator : Operator)
    (plain : isOperatorLike name.toList = false) : operator.name ≠ name := by
  intro same
  have like := isOperatorLike_name operator
  rw [same, plain] at like
  cases like

theorem exists_of_isOperatorLike {name : List Char} (like : isOperatorLike name = true) :
    ∃ first rest, name = first :: rest ∧ (first = 'i' ∨ first = 'f') := by
  unfold isOperatorLike at like
  split at like
  · exact ⟨_, _, rfl, .inl rfl⟩
  · exact ⟨_, _, rfl, .inl rfl⟩
  · exact ⟨_, _, rfl, .inr rfl⟩
  · exact ⟨_, _, rfl, .inr rfl⟩
  · cases like

theorem isHead_of_first {letters : String} {first : Char} {rest : List Char}
    (spelled : letters.toList = first :: rest) (begins : first = 'i' ∨ first = 'f') :
    isHead letters = true := by
  have number : Numeral.natural? letters.toList = none := by
    rw [spelled]
    rcases begins with rfl | rfl <;> rfl
  have offset : "offset=".toList.isPrefixOf letters.toList = false := by
    rw [spelled]
    rcases begins with rfl | rfl <;> rfl
  have align : "align=".toList.isPrefixOf letters.toList = false := by
    rw [spelled]
    rcases begins with rfl | rfl <;> rfl
  have differs (label : String) (other : label.toList.head? ≠ some first) :
      (letters != label) = true := by
    rw [bne_iff_ne]
    rintro rfl
    exact other (by rw [spelled]; rfl)
  have ne : ∀ label ∈ ["type", "param", "result"], (letters != label) = true := by
    intro label known
    refine differs label ?_
    rcases begins with rfl | rfl <;> revert known label <;> decide
  simp only [isHead, number, offset, align, ne "type" (by decide), ne "param" (by decide),
    ne "result" (by decide), Option.isNone_none, Bool.not_false, Bool.and_self]

theorem isHead_operator (operator : Operator) : isHead operator.name = true := by
  obtain ⟨first, rest, spelled, begins⟩ := exists_of_isOperatorLike (isOperatorLike_name operator)
  exact isHead_of_first spelled begins

/-- The words that plain instructions may begin with, but for operators. -/
def listedNames : List String :=
  plainNames ++ Load.listed.map (·.name) ++ Save.listed.map (·.name)

theorem isHead_of_mem {name : String} (known : name ∈ controlNames ++ listedNames) :
    isHead name = true := by
  have all : (controlNames ++ listedNames).all isHead = true := by
    cbv
  exact List.all_eq_true.mp all name known

theorem operator_ne {name : String} (operator : Operator)
    (known : name ∈ controlNames ++ listedNames) : operator.name ≠ name := by
  have all : (controlNames ++ listedNames).all
      (fun name => !isOperatorLike name.toList) = true := by
    cbv
  have plain := List.all_eq_true.mp all name known
  rw [Bool.not_eq_true'] at plain
  exact name_ne operator plain

/-- No name stands in two lists. -/
theorem names_nodup : (controlNames ++ listedNames).Nodup := by
  have distinct : decide (controlNames ++ listedNames).Nodup = true := by
    cbv
  exact of_decide_eq_true distinct

theorem find?_load (form : Load) : Load.listed.find? (·.name = form.name) = some form := by
  cases form <;> rfl

theorem find?_save (form : Save) : Save.listed.find? (·.name = form.name) = some form := by
  cases form <;> rfl

theorem mem_loads (form : Load) : form.name ∈ Load.listed.map (·.name) :=
  List.mem_map_of_mem (List.mem_of_find?_eq_some (find?_load form))

theorem mem_saves (form : Save) : form.name ∈ Save.listed.map (·.name) :=
  List.mem_map_of_mem (List.mem_of_find?_eq_some (find?_save form))

theorem mem_listed_of_plain {name : String} (known : name ∈ plainNames) : name ∈ listedNames :=
  List.mem_append_left _ (List.mem_append_left _ known)

theorem mem_listed_of_load (form : Load) : form.name ∈ listedNames :=
  List.mem_append_left _ (List.mem_append_right _ (mem_loads form))

theorem mem_listed_of_save (form : Save) : form.name ∈ listedNames :=
  List.mem_append_right _ (mem_saves form)

theorem load_not_plain (form : Load) : form.name ∉ plainNames := by
  have distinct : (plainNames ++ Load.listed.map (·.name)).Nodup :=
    names_nodup.of_append_right.of_append_left
  exact fun plain => List.disjoint_of_nodup_append distinct plain (mem_loads form)

theorem save_not_plain (form : Save) : form.name ∉ plainNames := by
  have distinct : (plainNames ++ Load.listed.map (·.name) ++ Save.listed.map (·.name)).Nodup :=
    names_nodup.of_append_right
  exact fun plain =>
    List.disjoint_of_nodup_append distinct (List.mem_append_left _ plain) (mem_saves form)

end TableKernels.Wasm.Text
