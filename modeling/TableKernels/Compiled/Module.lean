import TableKernels.Compiled.Fibonacci
import TableKernels.Compiled.Globals
import TableKernels.Compiled.Manifest
import TableKernels.Compiled.Sieve
import TableKernels.Wasm.Typing

/-!
# The compiled module

`kernelModule` is the module of a configuration. Its shape is fixed; the configuration supplies the
constant, the limits of the memory and the manifest. `compile` writes it in bytes after checking the
configuration and the module.
-/

namespace TableKernels.Compiled

open Wasm

/-- Four words of 32 bits and no result. -/
def abortType : FuncType := ⟨[.i32, .i32, .i32, .i32], []⟩

/-- A word of 64 bits for another. -/
def wordType : FuncType := ⟨[.i64], [.i64]⟩

/-- Neither arguments nor results. -/
def plainType : FuncType := ⟨[], []⟩

/-- A word of 64 bits for one of 32. -/
def sieveType : FuncType := ⟨[.i64], [.i32]⟩

/-- The size of a table and the site that asks for it. -/
def reserveType : FuncType := ⟨[.i64, .i32], []⟩

/-- All types of the module. -/
def types : List FuncType := [abortType, wordType, plainType, sieveType, reserveType]

/-- The index of a type among those of the module. -/
def typeIndex (type : FuncType) : UInt32 := UInt32.ofNat (types.idxOf type)

/-- The two functions of the host. -/
def imports : List Import :=
  [⟨importModule, abortImport, .func (typeIndex abortType)⟩,
    ⟨importModule, callbackImport, .func (typeIndex wordType)⟩]

/-- The functions that the module defines, in the order of their indices. -/
def functions : List Function :=
  [⟨typeIndex plainType, updateMemory⟩, ⟨typeIndex plainType, invokeCallback⟩,
    ⟨typeIndex wordType, fibonacci⟩, ⟨typeIndex sieveType, sieve⟩,
    ⟨typeIndex reserveType, reserve⟩]

/-- The constant of a configuration, a counter and a snapshot. -/
def globals (config : Config) : List Global :=
  [⟨⟨.f64, false, false⟩, .ofWord (.f64 config.globalConst.bits)⟩,
    ⟨⟨.i64, true, false⟩, .ofWord (.i64 0)⟩, ⟨⟨.i64, true, false⟩, .ofWord (.i64 0)⟩]

/-- The kind of an export in a module. -/
def externKind : ExportKind → ExternKind
  | .func => .func
  | .global => .global
  | .memory => .memory

/-- The exports, row by row of the export table. -/
def exports : List Export :=
  exportTable.map fun row => ⟨row.name, externKind row.kind, UInt32.ofNat row.index⟩

/-- The custom section that holds the manifest. -/
def manifestSection (config : Config) : String × Bytes :=
  (sectionName, (Manifest.ofConfig config).toJson.toUTF8.toList)

/-- The module of a configuration. -/
def kernelModule (config : Config) : Module where
  types := types
  imports := imports
  functions := functions
  tables := []
  memories := [.plain config.initialPages config.maxPages]
  globals := globals config
  exports := exports
  start := none
  elements := []
  data := []
  customs := [manifestSection config]

/-- Why no module is built. -/
inductive CompileFault
  | invalidConfig (fault : ConfigFault)
  | invalidModule
deriving DecidableEq

/-- The bytes of the module of a configuration. -/
def compile (config : Config) : Except CompileFault Bytes := do
  config.validate.mapError .invalidConfig
  let program := kernelModule config
  if program.isValid then pure program.encode else throw .invalidModule

/-- The text of a fault in a configuration, as hosts and compilers report it. -/
def invalidConfigMessage (fault : ConfigFault) : String :=
  "invalid configuration: " ++ fault.message

end TableKernels.Compiled
