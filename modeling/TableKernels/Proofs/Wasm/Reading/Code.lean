import TableKernels.Proofs.Wasm.Reading.Operations

/-!
# Reading back code

Instructions are read back from their written form up to the marker that ends them. The decoders of
code are bounded by a number of steps, and as many steps as there are bytes are always enough.
-/

namespace TableKernels.Wasm

/-- Whether the alignment of a place leaves room for the mark of an index. -/
def MemoryPlace.isWritable (place : MemoryPlace) : Bool :=
  place.alignment < MemoryPlace.indexMark

theorem reads_place {place : MemoryPlace} (writable : place.isWritable = true) :
    Reads MemoryPlace.decode place.encode place := by
  obtain ⟨alignment, offset, memory⟩ := place
  have aligned : alignment < MemoryPlace.indexMark := of_decide_eq_true writable
  have small : alignment.toNat < 64 := aligned
  have below : alignment % MemoryPlace.indexMark = alignment := by
    rw [← UInt32.toNat_inj, UInt32.toNat_mod]
    exact Nat.mod_eq_of_lt small
  -- The index of the first memory is left out; that of another is announced by the mark.
  rcases eq_or_ne memory 0 with rfl | other
  · have unmarked : decide (MemoryPlace.indexMark ≤ alignment) = false :=
      decide_eq_false (UInt32.not_le.mpr aligned)
    have fits : decide (alignment < 2 * MemoryPlace.indexMark) = true :=
      decide_eq_true (UInt32.lt_iff_toNat_lt.mpr (small.trans (by decide)))
    have last : Reads (do
        let memory ← Decoder.part (MemoryPlace.indexMark ≤ alignment) Leb128.u32
        let offset ← Leb128.u64
        return MemoryPlace.mk (alignment % MemoryPlace.indexMark) offset (memory.getD 0))
        (Leb128.ofNat offset.toNat) ⟨alignment, offset, 0⟩ := by
      rw [unmarked, below]
      exact (Leb128.reads_u64 offset).map (f := fun offset => MemoryPlace.mk alignment offset 0)
    exact (reads_index alignment).bind (Reads.require fits last)
  · have marked : (alignment + MemoryPlace.indexMark).toNat = alignment.toNat + 64 := by
      rw [UInt32.toNat_add]
      exact Nat.mod_eq_of_lt (by change _ + 64 < _; omega)
    have fits : decide (alignment + MemoryPlace.indexMark < 2 * MemoryPlace.indexMark) = true := by
      refine decide_eq_true (UInt32.lt_iff_toNat_lt.mpr ?_)
      rw [marked]
      change _ < 128
      omega
    have flagged : decide (MemoryPlace.indexMark ≤ alignment + MemoryPlace.indexMark) = true := by
      refine decide_eq_true (UInt32.le_iff_toNat_le.mpr ?_)
      rw [marked]
      change 64 ≤ _
      omega
    have rest : (alignment + MemoryPlace.indexMark) % MemoryPlace.indexMark = alignment := by
      rw [← UInt32.toNat_inj, UInt32.toNat_mod, marked]
      change (_ + 64) % 64 = _
      omega
    have last : Reads (do
        let memory ← Decoder.part
          (MemoryPlace.indexMark ≤ alignment + MemoryPlace.indexMark) Leb128.u32
        let offset ← Leb128.u64
        return MemoryPlace.mk ((alignment + MemoryPlace.indexMark) % MemoryPlace.indexMark) offset
          (memory.getD 0))
        (encodeIndex memory ++ Leb128.ofNat offset.toNat) ⟨alignment, offset, memory⟩ := by
      rw [flagged, rest]
      exact ((reads_index memory).map (f := some)).bind ((Leb128.reads_u64 offset).map
        (f := fun offset => MemoryPlace.mk alignment offset memory))
    rw [MemoryPlace.encode, if_neg other, List.append_assoc]
    exact (reads_index _).bind (Reads.require fits last)

/-- Whether the place of a plain instruction can be written. -/
def Op.isWritable : Op → Bool
  | load _ place | save _ place => place.isWritable
  | _ => true

/-- A byte after which a plain instruction is read. -/
structure IsPlain (code : UInt8) : Prop where
  isNotEnd : code ≠ endCode
  isNotElse : code ≠ elseCode
  decodes : ∀ run, decodeInstr run code = do return .op (← Op.decode code)

section Operators

variable {code : UInt8}

theorem isPlain_of_le (low : 0x1a ≤ code) : IsPlain code where
  isNotEnd := by
    rintro rfl
    exact absurd low (by decide)
  isNotElse := by
    rintro rfl
    exact absurd low (by decide)
  decodes run := by
    unfold decodeInstr
    split <;> first | exact absurd low (by decide) | rfl

/-- Among the codes of operators there is no other plain instruction. -/
theorem Op.decode_of_le (low : 0x45 ≤ code) (high : code ≤ 0xc4) :
    Op.decode code = Op.decodeListed code := by
  unfold Op.decode
  split <;> first | exact absurd low (by decide) | exact absurd high (by decide) | rfl

theorem decodeListed_of_operator {operator : Operator}
    (found : Operator.ofCode? code = some operator)
    (low : 0x45 ≤ code) : Op.decodeListed code = return .numeric operator := by
  have behind {least : UInt8} (le : least ≤ 0x45) : least ≤ code := UInt8.le_trans le low
  rw [Op.decodeListed, Load.ofCode?_of_le (behind (by decide)),
    Save.ofCode?_of_le (behind (by decide)), found]

end Operators

/-- A second code is a number of one byte. -/
theorem reads_second {code : UInt8} (small : code < 0x80) :
    Reads Leb128.u32 [code] code.toUInt32 := by
  have low : code.toNat < 128 := UInt8.lt_iff_toNat_lt.mp small
  have written : Leb128.ofNat code.toUInt32.toNat = [code] := by
    rw [UInt8.toNat_toUInt32, Leb128.ofNat, if_pos low, UInt8.ofNat_toNat]
  exact written ▸ Leb128.reads_u32 code.toUInt32

theorem reads_extended {code : UInt8} {rest : Bytes} {op : Op}
    (read : Reads Op.decodeExtended (code :: rest) op) :
    ∃ first rest', 0xfc :: code :: rest = first :: rest' ∧ IsPlain first ∧
      Reads (Op.decode first) rest' op :=
  ⟨_, _, rfl, isPlain_of_le (by decide), read⟩

/-- A plain instruction is read back after its first byte. -/
theorem reads_op {op : Op} (writable : op.isWritable = true) :
    ∃ first rest, op.encode = first :: rest ∧ IsPlain first ∧ Reads (Op.decode first) rest op := by
  cases op with
  | nop => exact ⟨_, _, rfl, ⟨by decide, by decide, fun _ => rfl⟩, Reads.pure _⟩
  | drop | refIsNull => exact ⟨_, _, rfl, isPlain_of_le (by decide), Reads.pure _⟩
  | select type =>
    cases type with
    | none => exact ⟨_, _, rfl, isPlain_of_le (by decide), Reads.pure _⟩
    | some type =>
      have one : Reads Leb128.u32 [1] 1 := fun _ => rfl
      exact ⟨_, _, rfl, isPlain_of_le (by decide), one.bind (Reads.require rfl
        ((reads_valType type).map (f := fun type => Op.select (some type))))⟩
  | localGet index | localSet index | localTee index | globalGet index | globalSet index
  | tableGet index | tableSet index | memorySize index | memoryGrow index | refFunc index =>
    exact ⟨_, _, rfl, isPlain_of_le (by decide), (reads_index index).map⟩
  | load form place =>
    cases form <;> exact ⟨_, _, rfl, isPlain_of_le (by decide), (reads_place writable).map⟩
  | save form place =>
    cases form <;> exact ⟨_, _, rfl, isPlain_of_le (by decide), (reads_place writable).map⟩
  | dataDrop index | memoryFill index | elemDrop index | tableGrow index | tableSize index
  | tableFill index =>
    exact reads_extended ((reads_second (by decide)).bind (reads_index index).map)
  | memoryInit first second | memoryCopy first second | tableInit first second
  | tableCopy first second =>
    exact reads_extended ((reads_second (by decide)).bind
      ((reads_index first).bind (reads_index second).map))
  | refNull type => exact ⟨_, _, rfl, isPlain_of_le (by decide), (reads_heap type).map⟩
  | i32Const value =>
    have read := (Leb128.reads_integer 32 _ (by decide) value.toInt32.le_toInt
      value.toInt32.toInt_lt).map (f := fun number => Op.i32Const (Int32.ofInt number).toUInt32)
    rw [Int32.ofInt_toInt] at read
    exact ⟨_, _, rfl, isPlain_of_le (by decide), read⟩
  | i64Const value =>
    have read := (Leb128.reads_integer 64 _ (by decide) value.toInt64.le_toInt
      value.toInt64.toInt_lt).map (f := fun number => Op.i64Const (Int64.ofInt number).toUInt64)
    rw [Int64.ofInt_toInt] at read
    exact ⟨_, _, rfl, isPlain_of_le (by decide), read⟩
  | f32Const bits =>
    have read := (Reads.take (LittleEndian.encode 4 bits.toUInt64)).map
      (f := fun bytes => Op.f32Const (LittleEndian.decode bytes).toUInt32)
    rw [LittleEndian.decode_encode_four] at read
    exact ⟨_, _, rfl, isPlain_of_le (by decide), read⟩
  | f64Const bits =>
    have read := (Reads.take (LittleEndian.encode 8 bits)).map
      (f := fun bytes => Op.f64Const (LittleEndian.decode bytes))
    rw [LittleEndian.decode_encode] at read
    exact ⟨_, _, rfl, isPlain_of_le (by decide), read⟩
  | numeric operator =>
    rcases operator.listed_or_saturates with listed | saturates
    · obtain ⟨low, high⟩ := Operator.le_code listed
      rw [Op.encode, Operator.encode_of_mem_listed listed]
      refine ⟨_, _, rfl, isPlain_of_le (UInt8.le_trans (by decide) low), ?_⟩
      rw [Op.decode_of_le low high, decodeListed_of_operator (Operator.ofCode?_code listed) low]
      exact Reads.pure _
    · simp only [Operator.saturations, List.mem_cons, List.not_mem_nil, or_false] at saturates
      rcases saturates with rfl | rfl | rfl | rfl | rfl | rfl | rfl | rfl
      all_goals exact reads_extended fun _ => rfl

/-! ## Blocks -/

/-- An index begins with a byte that stands for nothing else in the type of a block. -/
theorem head_ofInt_ofNat (number : ℕ) :
    ∃ first rest, Leb128.ofInt number = first :: rest ∧ first ≠ emptyBlockCode ∧
      ¬ (emptyBlockCode < first ∧ first < 0x80) := by
  unfold Leb128.ofInt
  split
  · next small =>
    have byte : (UInt8.ofNat ((number : ℤ) % 128).toNat).toNat = number := by
      rw [toNat_ofNat8 (by omega)]
      omega
    have below : UInt8.ofNat ((number : ℤ) % 128).toNat < emptyBlockCode := by
      rw [UInt8.lt_iff_toNat_lt, byte]
      change number < 64
      omega
    exact ⟨_, _, rfl, UInt8.ne_of_lt below, fun both => absurd both.1 (UInt8.lt_asymm below)⟩
  · have byte : (UInt8.ofNat (((number : ℤ) % 128).toNat + 128)).toNat = number % 128 + 128 := by
      rw [toNat_ofNat8 (by omega)]
      omega
    have above : 0x80 ≤ UInt8.ofNat (((number : ℤ) % 128).toNat + 128) := by
      rw [UInt8.le_iff_toNat_le, byte]
      exact Nat.le_add_left _ _
    refine ⟨_, _, rfl, ?_, fun both => absurd both.2 (UInt8.not_lt.mpr above)⟩
    rintro same
    rw [same] at above
    exact absurd above (by decide)

theorem reads_blockType (type : BlockType) : Reads BlockType.decode type.encode type := by
  cases type with
  | empty => exact fun _ => rfl
  | result type =>
    cases type with
    | ref type => cases type <;> exact fun _ => rfl
    | _ => exact fun _ => rfl
  | function index =>
    have small : (index.toNat : ℤ) < 2 ^ 32 := by exact_mod_cast index.toNat_lt
    have read := Leb128.reads_integer 33 index.toNat (by decide) (by omega) small
    intro rest
    obtain ⟨first, others, written, nonempty, noType⟩ := head_ofInt_ofNat index.toNat
    have taken := read rest
    rw [BlockType.encode]
    rw [written, List.cons_append] at taken ⊢
    rw [BlockType.decode, if_neg nonempty, if_neg noType, taken]
    simp

/-! ## Instructions -/

mutual

/-- Whether the places in an instruction can be written. -/
def Instr.isWritable : Instr → Bool
  | .op op => op.isWritable
  | .blockOf _ body | .loopOf _ body => areWritable body
  | .branch _ body other => areWritable body && areWritable other
  | .brTable targets _ => targets.length ≤ Immediate.labelLimit
  | _ => true

/-- Whether the places in a list of instructions can be written. -/
def areWritable : List Instr → Bool
  | [] => true
  | instr :: code => instr.isWritable && areWritable code

end

theorem reads_closed {run : Decoder (List Instr × UInt8)} {bytes : Bytes} {code : List Instr}
    (read : Reads run (bytes ++ [endCode]) (code, endCode)) :
    Reads (decodeClosed run) (bytes ++ [endCode]) code := by
  have closed : Reads (decodeClosed run) ((bytes ++ [endCode]) ++ []) code :=
    read.bind (Reads.require rfl (Reads.pure code))
  rwa [List.append_nil] at closed

/-- A branch is read back, whether its second part is written or left out. -/
theorem reads_branch {type : BlockType} {run : Decoder (List Instr × UInt8)} {body other : Bytes}
    {code code' : List Instr}
    (first : ∀ last, last = endCode ∨ last = elseCode → Reads run (body ++ [last]) (code, last))
    (second : Reads run (other ++ [endCode]) (code', endCode)) :
    Reads (decodeBranch type run)
      (body ++ (if code'.isEmpty then [] else elseCode :: other) ++ [endCode])
      (.branch type code code') := by
  cases code' with
  | nil =>
    have read : Reads (decodeBranch type run) ((body ++ [endCode]) ++ []) (.branch type code []) :=
      (first endCode (.inl rfl)).bind (Reads.pure _)
    simpa using read
  | cons instr code' =>
    have read : Reads (decodeBranch type run) ((body ++ [elseCode]) ++ (other ++ [endCode]))
        (.branch type code (instr :: code')) :=
      (first elseCode (.inr rfl)).bind ((reads_closed second).map
        (f := fun other => Instr.branch type code other))
    simpa using read

mutual

/-- An instruction is read back after its first byte. -/
theorem reads_instr (instr : Instr) (writable : instr.isWritable = true) (fuel : ℕ)
    (enough : instr.encode.length ≤ fuel) :
    ∃ first rest, instr.encode = first :: rest ∧ first ≠ endCode ∧ first ≠ elseCode ∧
      Reads (decodeInstr (decodeRunFrom fuel) first) rest instr := by
  cases instr with
  | op op =>
    obtain ⟨first, rest, written, plain, read⟩ := reads_op writable
    refine ⟨first, rest, written, plain.isNotEnd, plain.isNotElse, ?_⟩
    rw [plain.decodes]
    exact read.map
  | unreachable | ret => exact ⟨_, _, rfl, by decide, by decide, Reads.pure _⟩
  | blockOf type body | loopOf type body =>
    have inner : (encodeRun body).length < fuel := by
      simp only [Instr.encode, List.length_append, List.length_cons] at enough
      omega
    have read (build : BlockType → List Instr → Instr) :
        Reads (do return build (← BlockType.decode) (← decodeClosed (decodeRunFrom fuel)))
          (type.encode ++ encodeRun body ++ [endCode]) (build type body) := by
      rw [List.append_assoc]
      exact (reads_blockType type).bind
        (reads_closed (reads_run body writable fuel inner _ (.inl rfl))).map
    exact ⟨_, _, rfl, by decide, by decide, read _⟩
  | branch type body other =>
    obtain ⟨writable, writable'⟩ := (Bool.and_eq_true _ _).mp writable
    have inner : (encodeRun body).length < fuel ∧ (encodeRun other).length < fuel := by
      rw [Instr.encode] at enough
      cases other with
      | nil =>
        simp only [List.length_append, List.length_cons] at enough
        exact ⟨by omega, Nat.lt_of_le_of_lt (Nat.zero_le _) (by omega : 0 < fuel)⟩
      | cons instr other =>
        simp only [List.length_append, List.length_cons, List.isEmpty_cons, Bool.false_eq_true,
          if_false] at enough
        omega
    refine ⟨0x04, type.encode ++ (encodeRun body ++
      (if other.isEmpty then [] else elseCode :: encodeRun other) ++ [endCode]), ?_, by decide,
      by decide, (reads_blockType type).bind (reads_branch
        (reads_run body writable fuel inner.1)
          (reads_run other writable' fuel inner.2 _ (.inl rfl)))⟩
    rw [Instr.encode]
    simp only [List.cons_append, List.append_assoc]
  | br depth => exact ⟨_, _, rfl, by decide, by decide, (reads_index depth).map⟩
  | brIf depth => exact ⟨_, _, rfl, by decide, by decide, (reads_index depth).map⟩
  | call function | returnCall function =>
    exact ⟨_, _, rfl, by decide, by decide, (reads_index function).map⟩
  | brTable targets default =>
    have read := reads_vector (of_decide_eq_true writable) (by decide)
      fun target _ => reads_index target
    exact ⟨_, _, rfl, by decide, by decide, read.bind (reads_index default).map⟩
  | callIndirect type table | returnCallIndirect type table =>
    exact ⟨_, _, rfl, by decide, by decide, (reads_index type).bind (reads_index table).map⟩

theorem reads_run (code : List Instr) (writable : areWritable code = true) (fuel : ℕ)
    (enough : (encodeRun code).length < fuel) (last : UInt8)
    (ends : last = endCode ∨ last = elseCode) :
    Reads (decodeRunFrom fuel) (encodeRun code ++ [last]) (code, last) := by
  obtain ⟨fuel, rfl⟩ := Nat.exists_eq_add_of_le' (Nat.succ_le_of_lt (Nat.pos_of_ne_zero
    (Nat.ne_zero_of_lt enough)))
  cases code with
  | nil => rcases ends with rfl | rfl <;> exact fun _ => rfl
  | cons instr code =>
    obtain ⟨writable, writable'⟩ := (Bool.and_eq_true _ _).mp writable
    rw [encodeRun, List.length_append] at enough
    obtain ⟨first, rest, written, notEnd, notElse, read⟩ :=
      reads_instr instr writable fuel (by omega)
    rw [written, List.length_cons] at enough
    have next : Reads (if first == endCode || first == elseCode then return ([], first) else do
        let instr ← decodeInstr (decodeRunFrom fuel) first
        let (code, last) ← decodeRunFrom fuel
        return (instr :: code, last))
        (rest ++ (encodeRun code ++ [last])) (instr :: code, last) := by
      rw [if_neg (by simp [notEnd, notElse])]
      exact read.bind ((reads_run code writable' fuel (by omega) last ends).map
        (f := fun (code, last) => (instr :: code, last)))
    rw [encodeRun, written, List.append_assoc]
    exact (Reads.byte first).bind next

end

theorem reads_code {code : List Instr} (writable : areWritable code = true) :
    Reads decodeCode (encodeCode code) code := by
  intro rest
  refine reads_closed (reads_run code writable _ ?_ endCode (.inl rfl)) rest
  rw [List.length_append, encodeCode, List.length_append]
  omega

/-! ## Bodies and globals -/

theorem reads_locals (group : UInt32 × ValType) :
    Reads Body.decodeLocals (Body.encodeLocals group) group :=
  (reads_index group.1).bind ((reads_valType group.2).map (f := fun type => (group.1, type)))

/-- The body of a function is read back without the length in front of it. -/
theorem reads_body {body : Body} (writable : areWritable body.code = true)
    (groups : body.locals.length ≤ Body.localLimit)
    (count : Body.localCount body.locals ≤ Body.localLimit) :
    Reads Body.decode (vector Body.encodeLocals body.locals ++ encodeCode body.code) body :=
  (reads_vector groups (by decide) fun group _ => reads_locals group).bind
    (Reads.require (decide_eq_true count)
      ((reads_code writable).map (f := fun code => Body.mk body.locals code)))

/-- A step of a constant is written as a plain instruction that is the step. -/
theorem ConstantStep.exists_op (step : ConstantStep) :
    ∃ op : Op, op.isWritable = true ∧ step.encode = op.encode ∧ ofOp? op = some step := by
  cases step with
  | push word =>
    cases word with
    | i32 value => exact ⟨.i32Const value, rfl, rfl, rfl⟩
    | i64 value => exact ⟨.i64Const value, rfl, rfl, rfl⟩
    | f32 bits => exact ⟨.f32Const bits, rfl, rfl, rfl⟩
    | f64 bits => exact ⟨.f64Const bits, rfl, rfl, rfl⟩
    | funcRef function =>
      cases function with
      | none => exact ⟨.refNull .func, rfl, rfl, rfl⟩
      | some function => exact ⟨.refFunc function, rfl, rfl, rfl⟩
    | hostNull => exact ⟨.refNull .host, rfl, rfl, rfl⟩
  | apply operator => exact ⟨.numeric operator, rfl, rfl, rfl⟩

theorem reads_step (step : ConstantStep) :
    ∃ first rest, step.encode = first :: rest ∧ first ≠ endCode ∧
      Reads (ConstantStep.decode first) rest step := by
  obtain ⟨op, writable, same, converted⟩ := step.exists_op
  obtain ⟨first, rest, written, plain, read⟩ := reads_op writable
  refine ⟨first, rest, same.trans written, plain.isNotEnd, ?_⟩
  rw [← List.append_nil rest]
  refine read.bind ?_
  rw [converted]
  exact Reads.pure step

theorem reads_constant (constant : Constant) : Reads Constant.decode constant.encode constant := by
  have steps (constant : Constant) (fuel : ℕ)
      (enough : (constant.flatMap (·.encode)).length < fuel) :
      Reads (Constant.decodeFrom fuel) constant.encode constant := by
    induction constant generalizing fuel with
    | nil =>
      obtain ⟨fuel, rfl⟩ := Nat.exists_eq_add_of_le' (Nat.one_le_of_lt enough)
      exact fun _ => rfl
    | cons step constant hypothesis =>
      obtain ⟨first, rest, written, other, read⟩ := reads_step step
      rw [List.flatMap_cons, written, List.length_append, List.length_cons] at enough
      obtain ⟨fuel, rfl⟩ := Nat.exists_eq_add_of_le' (by omega : 1 ≤ fuel)
      have next : Reads (if first == endCode then return [] else do
          let step ← ConstantStep.decode first
          return step :: (← Constant.decodeFrom fuel))
          (rest ++ Constant.encode constant) (step :: constant) := by
        rw [if_neg (by simpa using other)]
        exact read.bind (hypothesis fuel (by omega)).map
      have split : Constant.encode (step :: constant) =
          [first] ++ (rest ++ Constant.encode constant) := by
        rw [Constant.encode, List.flatMap_cons, written, List.append_assoc]
        rfl
      rw [split]
      exact (Reads.byte first).bind next
  intro rest
  refine steps constant _ ?_ rest
  rw [List.length_append, Constant.encode, List.length_append]
  omega

theorem reads_globalType (type : GlobalType) : Reads GlobalType.decode type.encode type := by
  obtain ⟨type, isMutable, shared⟩ := type
  have bits : ∀ isMutable shared : Bool,
      let flags : UInt8 := (if isMutable then 1 else 0) + (if shared then 2 else 0)
      decide (flags < 4) = true ∧ (flags &&& 1 != 0) = isMutable ∧ (flags &&& 2 != 0) = shared := by
    decide
  obtain ⟨small, mutableBit, sharedBit⟩ := bits isMutable shared
  have finish : Reads
      (do
        Decoder.require (((if isMutable then 1 else 0) + (if shared then 2 else 0) : UInt8) < 4)
        return GlobalType.mk type isMutable shared)
      [] ⟨type, isMutable, shared⟩ :=
    Reads.require small (Reads.pure _)
  refine (reads_valType type).bind ((Reads.byte _).bind ?_)
  simp only [mutableBit, sharedBit]
  exact finish

theorem reads_global (item : Global) : Reads Global.decode item.encode item :=
  (reads_globalType item.type).bind ((reads_constant item.value).map
    (f := fun value => Global.mk item.type value))

end TableKernels.Wasm
