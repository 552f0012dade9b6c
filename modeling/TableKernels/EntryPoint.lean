import TableKernels.Scalar

/-!
# Entry points and exports

The four entry points of a kernel module, with the names, sites and signatures by which they are
reached, and the table of everything such a module exports.
-/

namespace TableKernels

/-- The callable entry points. -/
inductive EntryPoint
  | fibonacci
  | sieve
  | updateMemory
  | invokeCallback
deriving DecidableEq

namespace EntryPoint

/-- The entry points in the order in which they are looked up. -/
def all : List EntryPoint := [fibonacci, sieve, updateMemory, invokeCallback]

/-- The name under which an entry point is exported. -/
def name : EntryPoint → String
  | fibonacci => "fibonacci"
  | sieve => "sieve"
  | updateMemory => "update_memory"
  | invokeCallback => "invoke_callback"

/-- The number that stands for an entry point in a diagnostic. -/
def site : EntryPoint → Int32
  | fibonacci => 1
  | sieve => 2
  | updateMemory => 3
  | invokeCallback => 4

/-- The entry point with a name. -/
def ofName? (name : String) : Option EntryPoint :=
  all.find? (·.name == name)

/-- The entry point with a site. -/
def ofSite? (site : Int32) : Option EntryPoint :=
  all.find? (·.site == site)

/-- The types of the arguments. -/
def params : EntryPoint → List ScalarType
  | fibonacci | sieve => [.i64]
  | updateMemory | invokeCallback => []

/-- The type of the result, if there is one. -/
def result : EntryPoint → Option ScalarType
  | fibonacci => some .i64
  | sieve => some .i32
  | updateMemory | invokeCallback => none

end EntryPoint

/-- What kind of thing an export names. -/
inductive ExportKind
  | func
  | global
  | memory
deriving DecidableEq

/-- The name of a kind. -/
def ExportKind.name : ExportKind → String
  | .func => "func"
  | .global => "global"
  | .memory => "memory"

/-- One row of the export table: a name, and an index among the things of its kind. -/
structure ExportRow where
  name : String
  kind : ExportKind
  index : Nat
deriving DecidableEq

/-- The names of the exported globals and of the memory. -/
def constantName : String := "global_const"

/-- The global that counts through the callback. -/
def counterName : String := "from_callback"

/-- The global that holds the last snapshot. -/
def snapshotName : String := "memory_value"

/-- The memory that holds the host's region and the tables. -/
def memoryName : String := "memory"

/-- Every export of a kernel module in the order of its export section. -/
def exportTable : List ExportRow :=
  [⟨constantName, .global, 0⟩, ⟨counterName, .global, 1⟩, ⟨snapshotName, .global, 2⟩,
    ⟨EntryPoint.updateMemory.name, .func, 2⟩, ⟨EntryPoint.invokeCallback.name, .func, 3⟩,
    ⟨EntryPoint.fibonacci.name, .func, 4⟩, ⟨EntryPoint.sieve.name, .func, 5⟩,
    ⟨memoryName, .memory, 0⟩]

/-- The module name of everything that a kernel module imports. -/
def importModule : String := "env"

/-- The import that takes a diagnostic. -/
def abortImport : String := "abort"

/-- The import that hands a number to the host and takes one back. -/
def callbackImport : String := "callback"

end TableKernels
