import TableKernels.Proofs.Memory.Bytes
import TableKernels.Proofs.Wasm.Loading

/-!
# How memories grow

A memory has whole pages, at most as many as its limit allows. Plain instructions change bytes in
place or add pages below the limit, and the host has no hand in it. So memories never shrink while
code runs, and stay within what their types declare.
-/

namespace TableKernels.Wasm

variable {Host : Type} {program : Module} {linker : Linker Host} {host : Host}

/-! ## Memories -/

theorem size_withBytes (memory : Memory) (change : ByteArray → ByteArray) :
    (memory.withBytes change).size = (change memory.bytes).size := rfl

theorem bytes_grow (memory : Memory) (more : ℕ) :
    (memory.grow more).bytes = extendBytes memory.bytes 0 (more * pageSize) := by
  cases memory
  rfl

theorem size_grow (memory : Memory) (more : ℕ) :
    (memory.grow more).size = memory.size + more * pageSize := by
  rw [Memory.size, bytes_grow, size_extendBytes, Memory.size]

namespace Memory

/-- A memory of whole pages, at most as many as its limit allows. -/
structure IsBounded (memory : Memory) : Prop where
  whole : memory.size = memory.pages * pageSize
  within : memory.pages ≤ memory.maxPages

/-- A memory later on: it has grown, if anything, and not beyond its limit. -/
structure Becomes (before after : Memory) : Prop where
  maxPages : after.maxPages = before.maxPages
  size : before.size ≤ after.size
  bounded : before.IsBounded → after.IsBounded

variable {memory first second third : Memory}

theorem Becomes.refl (memory : Memory) : memory.Becomes memory :=
  ⟨rfl, le_rfl, id⟩

theorem Becomes.trans (before : first.Becomes second) (after : second.Becomes third) :
    first.Becomes third :=
  ⟨after.maxPages.trans before.maxPages, before.size.trans after.size,
    after.bounded ∘ before.bounded⟩

theorem becomes_withBytes {change : ByteArray → ByteArray}
    (same : (change memory.bytes).size = memory.bytes.size) :
    memory.Becomes (memory.withBytes change) := by
  have size : (memory.withBytes change).size = memory.size :=
    (size_withBytes memory change).trans same
  have pages : (memory.withBytes change).pages = memory.pages := congrArg (· / pageSize) size
  refine ⟨rfl, size.ge, fun bounded => ⟨?_, pages.trans_le bounded.within⟩⟩
  rw [size, pages]
  exact bounded.whole

theorem becomes_grow {more : ℕ} (can : memory.canGrow more = true) :
    memory.Becomes (memory.grow more) := by
  have le : memory.pages + more ≤ memory.maxPages := of_decide_eq_true can
  have size := size_grow memory more
  have pages : (memory.grow more).pages = memory.pages + more := by
    rw [Memory.pages, size, Nat.add_mul_div_right _ _ (by decide)]
    rfl
  refine ⟨rfl, by omega, fun bounded => ⟨?_, pages.trans_le le⟩⟩
  rw [size, pages, bounded.whole, Nat.add_mul]

end Memory

/-! ## Stores -/

namespace Store

/-- Each memory of a store has grown, if anything. -/
def Grows (before after : Store Host) : Prop :=
  ∀ index, (before.memoryAt index).Becomes (after.memoryAt index)

variable {store first second third : Store Host}

theorem Grows.refl (store : Store Host) : store.Grows store := fun _ => .refl _

theorem Grows.trans (before : first.Grows second) (after : second.Grows third) :
    first.Grows third := fun index => (before index).trans (after index)

/-- A memory that is changed is changed under its own index, and the others stay. -/
theorem grows_changeMemory {index : UInt32} {change : Memory → Memory}
    (becomes : (store.memoryAt index).Becomes (change (store.memoryAt index))) :
    store.Grows (store.changeMemory index change) := by
  intro other
  simp only [memoryAt, changeMemory] at *
  split at becomes
  · next first =>
    rw [if_pos first]
    split
    · exact becomes
    · exact .refl _
  · next later =>
    rw [if_neg later]
    split
    · exact .refl _
    · rw [Array.getElem?_modify]
      split
      · next same =>
        rw [same] at becomes
        cases found : store.others[other.toNat - 1]? with
        | none => exact .refl _
        | some memory =>
          rw [found] at becomes
          exact becomes
      · exact .refl _

theorem grows_changeBytes {index : UInt32} {change : ByteArray → ByteArray}
    (same : ∀ bytes, (change bytes).size = bytes.size) :
    store.Grows (store.changeBytes index change) :=
  grows_changeMemory (Memory.becomes_withBytes (same _))

/-- Bytes that are replaced in a memory are replaced there, if there is such a memory. -/
theorem bytes_changeBytes (store : Store Host) (index : UInt32)
    (change : ByteArray → ByteArray) (empty : change .empty = .empty) :
    ((store.changeBytes index change).memoryAt index).bytes =
      change (store.memoryAt index).bytes := by
  obtain ⟨memory, others, _⟩ := store
  simp only [changeBytes, changeMemory, memoryAt]
  by_cases first : index = 0
  · simp only [first, if_true]
    rfl
  · simp only [first, if_false, Array.getElem?_modify, if_true]
    cases others[index.toNat - 1]? with
    | none => exact empty.symm
    | some memory => rfl

theorem Changes.grows {op : Op} (changes : first.Changes op second) : first.Grows second := by
  cases changes with
  | none | global => exact fun _ => .refl _
  | bytes memory change same => exact grows_changeBytes same
  | grow memory more can => exact grows_changeMemory (Memory.becomes_grow can)
  | tables => exact fun _ => .refl _

end Store

theorem Program.maintains_grows (program : Program Host) :
    program.Maintains (fun _ => True) Store.Grows where
  refl := .refl
  trans := .trans
  op _ _ _ _ changes := changes.grows
  call _ _ _ _ := .refl _
  routines _ _ _ _ := trivial

/-! ## Declared memories -/

/-- A memory is one of those that a type declares, as it began or later. -/
structure MemoryType.Describes (type : MemoryType) (memory : Memory) : Prop where
  bounded : memory.IsBounded
  least : type.minPages.toNat ≤ memory.pages
  maxPages : memory.maxPages =
    min Module.pageSupply ((type.maxPages.map (·.toNat)).getD Module.pageSupply)

namespace MemoryType.Describes

variable {type : MemoryType} {memory after : Memory}

theorem becomes (describes : type.Describes memory) (becomes : memory.Becomes after) :
    type.Describes after :=
  ⟨becomes.bounded describes.bounded,
    describes.least.trans (Nat.div_le_div_right becomes.size),
    becomes.maxPages.trans describes.maxPages⟩

/-- A memory has at least the pages that are declared. -/
theorem least_le (describes : type.Describes memory) :
    type.minPages.toNat * pageSize ≤ memory.size :=
  (Nat.mul_le_mul_right _ describes.least).trans_eq describes.bounded.whole.symm

/-- A memory has at most the pages that can be had. -/
theorem le_supply (describes : type.Describes memory) :
    memory.size ≤ Module.pageSupply * pageSize := by
  rw [describes.bounded.whole]
  refine Nat.mul_le_mul_right _ (describes.bounded.within.trans ?_)
  rw [describes.maxPages]
  exact Nat.min_le_left _ _

end MemoryType.Describes

namespace Module

/-- The memory that a valid type declares is one that it describes. -/
theorem describes_firstMemory {type : MemoryType} {memory : Memory}
    (valid : isMemoryValid type = true) (first : firstMemory? type = some memory) :
    type.Describes memory := by
  rw [firstMemory?] at first
  split at first
  case isFalse => cases first
  case isTrue had =>
  cases first
  have size : Memory.size ⟨extendBytes .empty 0 (type.minPages.toNat * pageSize),
      min pageSupply ((type.maxPages.map (·.toNat)).getD pageSupply), type.wide⟩ =
        type.minPages.toNat * pageSize := by
    rw [Memory.size, size_extendBytes]
    exact Nat.zero_add _
  have pages : Memory.pages ⟨extendBytes .empty 0 (type.minPages.toNat * pageSize),
      min pageSupply ((type.maxPages.map (·.toNat)).getD pageSupply), type.wide⟩ =
        type.minPages.toNat := by
    rw [Memory.pages, size, Nat.mul_div_cancel _ (by decide)]
  refine ⟨⟨size.trans (by rw [pages]), ?_⟩, pages.ge, rfl⟩
  rw [pages]
  refine Nat.le_min.mpr ⟨had, ?_⟩
  cases declared : type.maxPages with
  | none => exact had
  | some most =>
    simp only [isMemoryValid, isWithin, declared, Option.all_some, Bool.and_eq_true,
      decide_eq_true_eq] at valid
    exact UInt64.le_iff_toNat_le.mp valid.2.2.1

theorem Places.grows {first last : Store Host} (places : program.Places first last) :
    first.Grows last :=
  places.maintains Store.Grows .refl .trans
    (fun _ _ _ _ => Store.grows_changeBytes fun _ => size_overwrite _ _ _)
    fun _ _ _ _ => .refl _

theorem describes_firstStore {store : Store Host}
    (valid : program.memories.all isMemoryValid = true)
    (first : program.firstStore? host = some store) {index : UInt32} {type : MemoryType}
    (declared : program.memories[index.toNat]? = some type) :
    type.Describes (store.memoryAt index) := by
  obtain ⟨memories, _, _, reserved, _, _, _, memory, others, _⟩ := firstStore?_eq_some first
  rw [memoryAt_eq_getElem? memories memory others]
  obtain ⟨inside, rfl⟩ := List.getElem?_eq_some_iff.mp declared
  have related := forall₂_of_mapM reserved
  have inside' : index.toNat < memories.length := related.length_eq ▸ inside
  rw [List.getElem?_eq_getElem inside', Option.getD_some]
  exact describes_firstMemory (List.all_eq_true.mp valid _ (List.getElem_mem inside))
    (related.get inside inside')

/-- A module that is instantiated imports no memory, and each of its memories is as declared. -/
theorem memories_of_instantiate? {live : Instance Host}
    (instantiated : program.instantiate? linker host = some live) :
    program.importedMemories = [] ∧ ∀ (index : UInt32) (type : MemoryType),
      program.memories[index.toNat]? = some type → type.Describes (live.store.memoryAt index) := by
  obtain ⟨valid, loaded, load, same⟩ := instantiate?_eq_some instantiated
  obtain ⟨types, _, _, links, _, first, began, places⟩ := load?_eq_some load
  have noMemories : program.importedMemories = [] :=
    filterMap_eq_nil_of_links links fun item type kind => by rw [kind]
  have memories : program.memories.all isMemoryValid = true := by
    have checked := (checks_of_isValid valid types).memories
    rwa [allMemories, noMemories, List.nil_append] at checked
  refine ⟨noMemories, fun index type declared => ?_⟩
  have began := (describes_firstStore memories began declared).becomes
    (places.grows index)
  rcases same with rfl | ⟨start, results, store, _, ends, rfl⟩
  · exact began
  · have grows := loaded.program.invoke_maintains loaded.program.maintains_grows start []
      loaded.store
    rw [ends] at grows
    exact began.becomes (grows index)

end Module

end TableKernels.Wasm
