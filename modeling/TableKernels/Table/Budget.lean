import TableKernels.Panic
import TableKernels.Layout

/-!
# Table budgets

A kernel asks its budget for a zeroed table. The table is refused when the pages that it would take
in linear memory exceed the budget, so that a kernel without linear memory runs out exactly where
one with it would.
-/

namespace TableKernels

/-- The most pages that linear memory may have while a kernel runs. -/
structure TableBudget where
  maxPages : UInt64
deriving DecidableEq

namespace TableBudget

/-- The failure of a table that cannot be had, reporting the low bits of its size. -/
def outOfMemory (entry : EntryPoint) (bytes : Nat) (message : String) : Failure :=
  .internalTrap
    ⟨some ⟨AbortCode.outOfMemory.number, entry.site, 0, Int32.ofNat bytes⟩, message⟩

/-- Whether a table of so many bytes is within the budget. -/
def admits (budget : TableBudget) (bytes : Nat) : Bool :=
  pagesForTable bytes ≤ budget.maxPages.toNat

/-- The sizes, in bytes, that an allocation can have at all. -/
def allocationLimit : Nat := 0x7fffffffffffffff

/--
The bytes that the machine's allocator is taken to supply. Only the machine knows the true number;
it must exceed every table that a kernel asks for, and the largest of these takes 16 GiB.
-/
def allocatorLimit : Nat := 0x1000000000

/-- A table of so many entries, each of the given width in bytes and holding `zero`. -/
def table {α : Type} (budget : TableBudget) (entry : EntryPoint) (length width : Nat)
    (zero : α) : Run (Array α) := do
  let bytes := min (length * width) 0xffffffffffffffff
  let _ ← Run.addWord heapStart bytes
  if !budget.admits bytes then
    .failed (outOfMemory entry bytes
      ("`" ++ entry.name ++ "` table of " ++ toString bytes ++ " bytes needs " ++
        toString (pagesForTable bytes) ++ " pages, limit is " ++
        toString budget.maxPages.toNat))
  else if allocationLimit < length * width then
    .failed (outOfMemory entry bytes
      ("`" ++ entry.name ++ "` table allocation failed: memory allocation failed because " ++
        "the computed capacity exceeded the collection's maximum"))
  else if allocatorLimit < length * width then
    .failed (outOfMemory entry bytes
      ("`" ++ entry.name ++ "` table allocation failed: memory allocation failed because " ++
        "the memory allocator returned an error"))
  else pure (Array.replicate length zero)

end TableBudget

end TableKernels
