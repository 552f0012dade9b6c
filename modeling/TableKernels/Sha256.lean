import TableKernels.LittleEndian

/-!
# SHA-256

The digest of a byte sequence. The message is padded with a one bit, zeros and its length in bits
to whole blocks of sixty-four bytes; each block stretches into a schedule of sixty-four words which
stir the eight words of the state.
-/

namespace TableKernels.Sha256

/-- The words added in the rounds: fractional parts of cube roots of the first primes. -/
def roundWords : Array UInt32 :=
  #[0x428a2f98, 0x71374491, 0xb5c0fbcf, 0xe9b5dba5, 0x3956c25b, 0x59f111f1, 0x923f82a4, 0xab1c5ed5,
    0xd807aa98, 0x12835b01, 0x243185be, 0x550c7dc3, 0x72be5d74, 0x80deb1fe, 0x9bdc06a7, 0xc19bf174,
    0xe49b69c1, 0xefbe4786, 0x0fc19dc6, 0x240ca1cc, 0x2de92c6f, 0x4a7484aa, 0x5cb0a9dc, 0x76f988da,
    0x983e5152, 0xa831c66d, 0xb00327c8, 0xbf597fc7, 0xc6e00bf3, 0xd5a79147, 0x06ca6351, 0x14292967,
    0x27b70a85, 0x2e1b2138, 0x4d2c6dfc, 0x53380d13, 0x650a7354, 0x766a0abb, 0x81c2c92e, 0x92722c85,
    0xa2bfe8a1, 0xa81a664b, 0xc24b8b70, 0xc76c51a3, 0xd192e819, 0xd6990624, 0xf40e3585, 0x106aa070,
    0x19a4c116, 0x1e376c08, 0x2748774c, 0x34b0bcb5, 0x391c0cb3, 0x4ed8aa4a, 0x5b9cca4f, 0x682e6ff3,
    0x748f82ee, 0x78a5636f, 0x84c87814, 0x8cc70208, 0x90befffa, 0xa4506ceb, 0xbef9a3f7, 0xc67178f2]

/-- The eight words of the state. -/
structure State where
  a : UInt32
  b : UInt32
  c : UInt32
  d : UInt32
  e : UInt32
  f : UInt32
  g : UInt32
  h : UInt32
deriving DecidableEq

/-- The state before the first block: fractional parts of square roots of the first primes. -/
def State.initial : State :=
  ⟨0x6a09e667, 0xbb67ae85, 0x3c6ef372, 0xa54ff53a, 0x510e527f, 0x9b05688c, 0x1f83d9ab, 0x5be0cd19⟩

/-- A word rotated to the right. -/
def rotate (word amount : UInt32) : UInt32 :=
  (word >>> amount) ||| (word <<< (32 - amount))

/-- The message, a one bit, zeros, and the length in bits as eight bytes. -/
def padded (message : Bytes) : Bytes :=
  let zeros := (119 - message.length % 64) % 64
  message ++ 0x80 :: List.replicate zeros 0 ++
    (LittleEndian.encode 8 (UInt64.ofNat (8 * message.length))).reverse

/-- Four bytes as a word, the highest first. -/
def word (first second third fourth : UInt8) : UInt32 :=
  (first.toUInt32 <<< 24) ||| (second.toUInt32 <<< 16) ||| (third.toUInt32 <<< 8) |||
    fourth.toUInt32

/-- The words of a byte sequence; fewer than four bytes at the end are left out. -/
def words : Bytes → List UInt32
  | first :: second :: third :: fourth :: rest =>
    word first second third fourth :: words rest
  | _ => []

/-- The next word of a schedule, from the sixteen before it, the latest first. -/
def nextScheduled (recent : List UInt32) : UInt32 :=
  let at16 := recent.getD 15 0
  let at15 := recent.getD 14 0
  let at7 := recent.getD 6 0
  let at2 := recent.getD 1 0
  let low := rotate at15 7 ^^^ rotate at15 18 ^^^ (at15 >>> 3)
  let high := rotate at2 17 ^^^ rotate at2 19 ^^^ (at2 >>> 10)
  at16 + low + at7 + high

/-- Adds so many words to a schedule, the latest first. -/
def extend : Nat → List UInt32 → List UInt32
  | 0, schedule => schedule
  | count + 1, schedule => extend count (nextScheduled schedule :: schedule)

/-- The schedule of a block of sixteen words. -/
def schedule (block : List UInt32) : List UInt32 :=
  (extend 48 block.reverse).reverse

/-- One round. -/
def round (state : State) (input : UInt32) : State :=
  let high := rotate state.e 6 ^^^ rotate state.e 11 ^^^ rotate state.e 25
  let choice := (state.e &&& state.f) ^^^ (~~~state.e &&& state.g)
  let first := state.h + high + choice + input
  let low := rotate state.a 2 ^^^ rotate state.a 13 ^^^ rotate state.a 22
  let majority := (state.a &&& state.b) ^^^ (state.a &&& state.c) ^^^ (state.b &&& state.c)
  ⟨first + low + majority, state.a, state.b, state.c, state.d + first, state.e, state.f, state.g⟩

/-- The state after a block. -/
def compress (state : State) (block : List UInt32) : State :=
  let inputs := (schedule block).zipWith (· + ·) roundWords.toList
  let stirred := inputs.foldl round state
  ⟨state.a + stirred.a, state.b + stirred.b, state.c + stirred.c, state.d + stirred.d,
    state.e + stirred.e, state.f + stirred.f, state.g + stirred.g, state.h + stirred.h⟩

/-- The state after so many blocks of sixteen words. -/
def compressAll : Nat → State → List UInt32 → State
  | 0, state, _ => state
  | count + 1, state, rest => compressAll count (compress state (rest.take 16)) (rest.drop 16)

/-- The state after a whole message. -/
def digest (message : Bytes) : State :=
  let all := words (padded message)
  compressAll (all.length / 16) .initial all

/-- The hexadecimal digits of a number, so many of them. -/
def hexDigits : Nat → Nat → List Char
  | 0, _ => []
  | count + 1, number => hexDigits count (number / 16) ++ [Nat.digitChar (number % 16)]

/-- The digest of a message in hexadecimal digits. -/
def hexDigest (message : Bytes) : String :=
  let state := digest message
  String.ofList
    ([state.a, state.b, state.c, state.d, state.e, state.f, state.g, state.h].flatMap
      fun word => hexDigits 8 word.toNat)

end TableKernels.Sha256
