import TableKernels.Hosted.State
import TableKernels.Wasm.Source

/-!
# Linked modules

A module linked to a host that has seen nothing, and not more than that: nobody checks what it
exports, clears the diagnostics of earlier calls or reads its traps. Its entry points are called by
name and type.
-/

namespace TableKernels

open Wasm

/-- The type of a value that crosses the boundary. -/
def ScalarType.valType : ScalarType → ValType
  | .i32 => .i32
  | .i64 => .i64
  | .f64 => .f64

/-- The type of the function behind an entry point. -/
def EntryPoint.funcType (entry : EntryPoint) : FuncType :=
  ⟨entry.params.map ScalarType.valType, (entry.result.map ScalarType.valType).toList⟩

/-- A module linked to a host. -/
abbrev LinkedModule : Type := Instance HostState

/-- A scalar of the boundary as an operand. -/
def Scalar.word : Scalar → Word
  | .i32 value => .i32 value.toUInt32
  | .i64 value => .i64 value.toUInt64
  | .f64 value => .f64 value.bits

/-- An operand as a scalar of the boundary, unless it has a type that does not cross it. -/
def Scalar.ofWord? : Word → Option Scalar
  | .i32 value => some (.i32 value.toInt32)
  | .i64 value => some (.i64 value.toInt64)
  | .f64 bits => some (.f64 ⟨bits⟩)
  | .f32 _ | .funcRef _ | .hostNull => none

/-- Why a call of a linked module gave nothing back. -/
inductive LinkedFault
  | missingExport (name : String)
  | trap (trap : Trap)
  | unfinished
deriving DecidableEq

namespace LinkedModule

/-- The module that a source holds, linked to a host that has seen nothing and started. -/
def ofModule? (source : Bytes) : Option LinkedModule := do
  let program ← Module.ofSource? source
  program.instantiate? HostState.linker .new

/-- The function behind an entry point. -/
def entry? (linked : LinkedModule) (entry : EntryPoint) : Option UInt32 :=
  Instance.function? linked entry.name entry.funcType

/-- The word that a global holds. -/
def globalWord? (linked : LinkedModule) (index : UInt32) : Option Word :=
  linked.store.globals[index.toNat]?

/-- The value of an exported global, if it is a 64-bit integer. -/
def integer? (linked : LinkedModule) (name : String) : Option Int64 :=
  match (Instance.global? linked name).bind (globalWord? linked) with
  | some (.i64 value) => some value.toInt64
  | _ => none

/-- Calls the entry point; a trap leaves what was done before it. -/
def call (entry : EntryPoint) (arguments : List Scalar) (linked : LinkedModule) :
    Except LinkedFault (Option Scalar) × LinkedModule :=
  match entry? linked entry with
  | none => (.error (.missingExport entry.name), linked)
  | some index =>
    match linked.program.invoke index (arguments.map Scalar.word) linked.store with
    | .done results store =>
      (.ok (results.head?.bind Scalar.ofWord?), { linked with store })
    | .trap trap store => (.error (.trap trap), { linked with store })
    | .unfinished => (.error .unfinished, linked)

end LinkedModule

end TableKernels
