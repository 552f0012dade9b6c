import TableKernels.Wasm.Decoder

/-!
# Numbers of variable length

Integers are written in groups of seven bits, the lowest first, with the top bit of a byte set while
more follow. Writing takes the fewest groups. Reading is bounded by a width in bits: a number may be
padded up to as many groups as the width needs, and the unused bits of the last group must be zero
for an unsigned number and copies of the sign for a signed one.
-/

namespace TableKernels.Wasm.Leb128

/-- The written form of a natural number, seven bits to a byte. -/
def ofNat (number : Nat) : Bytes :=
  if number < 128 then [UInt8.ofNat number]
  else UInt8.ofNat (number % 128 + 128) :: ofNat (number / 128)

/-- The written form of an integer, whose last byte carries the sign. -/
def ofInt (number : Int) : Bytes :=
  if -64 ≤ number ∧ number < 64 then [UInt8.ofNat (number % 128).toNat]
  else UInt8.ofNat ((number % 128).toNat + 128) :: ofInt (number / 128)
termination_by number.natAbs
decreasing_by omega

/-- Reads a natural number of so many bits. -/
def natural : Nat → Decoder Nat
  | _, [] => none
  | width, byte :: rest =>
    if byte < 128 then
      if width < 7 ∧ Nat.pow 2 width ≤ byte.toNat then none else some (byte.toNat, rest)
    else if width ≤ 7 then none
    else (natural (width - 7) rest).map fun (high, rest) =>
      (byte.toNat - 128 + 128 * high, rest)

/-- The integer of the last group: its sign is the seventh bit. -/
def lastGroup (byte : UInt8) : Int :=
  if byte.toNat < 64 then byte.toNat else byte.toNat - 128

/-- An integer from `-2 ^ (width - 1)` up to but not including `2 ^ (width - 1)`. -/
def integer : Nat → Decoder Int
  | _, [] => none
  | width, byte :: rest =>
    if byte < 128 then
      let group := lastGroup byte
      let half : Int := Nat.pow 2 (width - 1)
      if width < 7 ∧ ¬(-half ≤ group ∧ group < half) then none
      else some (group, rest)
    else if width ≤ 7 then none
    else (integer (width - 7) rest).map fun (high, rest) =>
      ((byte.toNat - 128 : Nat) + 128 * high, rest)

/-- Reads an unsigned word of 32 bits. -/
def u32 : Decoder UInt32 := do return UInt32.ofNat (← natural 32)

/-- Reads an unsigned word of 64 bits. -/
def u64 : Decoder UInt64 := do return UInt64.ofNat (← natural 64)

end TableKernels.Wasm.Leb128
