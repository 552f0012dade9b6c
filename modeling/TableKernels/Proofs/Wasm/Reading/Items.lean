import TableKernels.Proofs.Wasm.Reading.Basic
import TableKernels.Wasm.Module

/-!
# Reading back items

The types, imports, memories, globals and exports of a module are each read back from their written
form. Globals come with a word for their first value, and imports are functions.
-/

namespace TableKernels.Wasm

theorem reads_heap (type : RefType) : Reads RefType.decodeHeap [type.code] type := by
  cases type <;> exact fun _ => rfl

theorem reads_valType (type : ValType) : Reads decodeValType [type.code] type := by
  cases type with
  | ref type => cases type <;> exact fun _ => rfl
  | _ => exact fun _ => rfl

theorem reads_valTypes {types : List ValType} (short : types.length ≤ arityLimit) :
    Reads (Decoder.vector decodeValType arityLimit) (vector (fun type => [type.code]) types)
      types :=
  reads_vector short (by decide) fun type _ => reads_valType type

theorem reads_typeEntry {type : FuncType} (params : type.params.length ≤ arityLimit)
    (results : type.results.length ≤ arityLimit) :
    Reads TypeEntry.decode type.encode ⟨type, false, false⟩ := by
  have arity : Reads FuncType.decodeArity
      (vector (fun value => [ValType.code value]) type.params ++
        vector (fun value => [ValType.code value]) type.results) type :=
    (reads_valTypes params).bind ((reads_valTypes results).map
      (f := fun results => FuncType.mk type.params results))
  intro rest
  exact arity.map (f := fun arity => TypeEntry.mk arity false false) rest

theorem reads_import {item : Import} {type : UInt32} (kind : item.kind = .func type)
    (moduleShort : item.moduleName.utf8ByteSize ≤ nameLimit)
    (short : item.name.utf8ByteSize ≤ nameLimit) : Reads Import.decode item.encode item := by
  obtain ⟨moduleName, name, _⟩ := item
  cases kind
  have index : Reads Import.decodeKind (0 :: encodeIndex type) (.func type) :=
    fun rest => (reads_index type).map (f := ImportKind.func) rest
  rw [Import.encode, List.append_assoc]
  exact (reads_name moduleShort).bind ((reads_name short).bind
    (index.map (f := fun kind => Import.mk moduleName name kind)))

theorem reads_export {item : Export} (short : item.name.utf8ByteSize ≤ nameLimit) :
    Reads Export.decode item.encode item := by
  obtain ⟨name, kind, index⟩ := item
  refine (reads_name short).bind fun rest => ?_
  cases kind <;> exact (reads_index index).map (f := fun index => Export.mk name _ index) rest

theorem reads_memoryType {minPages maxPages : UInt64} (min_lt : minPages.toNat < 2 ^ 32)
    (max_lt : maxPages.toNat < 2 ^ 32) :
    Reads MemoryType.decode (MemoryType.plain minPages maxPages).encode
      (.plain minPages maxPages) := by
  have limit : ∀ pages : UInt64, pages.toNat < 2 ^ 32 →
      Reads (decodeLimit false) (Leb128.ofNat pages.toNat) pages := by
    intro pages pages_lt
    have read := (Leb128.reads_natural pages_lt).map (f := UInt64.ofNat)
    rwa [UInt64.ofNat_toNat] at read
  have read : Reads MemoryType.decode
      ([1] ++ (Leb128.ofNat minPages.toNat ++ (Leb128.ofNat maxPages.toNat ++ [])))
      (.plain minPages maxPages) :=
    (Reads.byte 1).bind (Reads.require rfl ((limit minPages min_lt).bind
      (((limit maxPages max_lt).map (f := some)).bind (Reads.pure _))))
  have written : (MemoryType.plain minPages maxPages).encode =
      (1 :: Leb128.ofNat minPages.toNat) ++ Leb128.ofNat maxPages.toNat ++ [] := rfl
  rw [written, List.append_assoc]
  exact read

end TableKernels.Wasm
