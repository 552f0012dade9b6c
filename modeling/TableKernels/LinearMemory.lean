import TableKernels.Failure
import TableKernels.Layout
import TableKernels.LittleEndian

/-!
# Linear memory of the host

A flat buffer of bytes that the host owns. An access succeeds exactly when its offset and its
length, added without wrapping, stay within the size, and a refused write changes nothing.
-/

namespace TableKernels

/-- A byte-addressable buffer. -/
structure LinearMemory where
  bytes : ByteArray

/-- A buffer followed by so many copies of a byte. -/
def extendBytes (buffer : ByteArray) (byte : UInt8) : Nat → ByteArray
  | 0 => buffer
  | count + 1 => extendBytes (buffer.push byte) byte count

/-- Overwrites the bytes of a buffer from an offset on, as far as the buffer reaches. -/
def overwrite (buffer : ByteArray) (offset : Nat) : Bytes → ByteArray
  | [] => buffer
  | byte :: rest =>
    if inside : offset < buffer.size then
      overwrite (buffer.set offset byte inside) (offset + 1) rest
    else buffer

namespace LinearMemory

/-- A memory of so many pages, all zero. -/
def ofPages (pages : Nat) : LinearMemory := ⟨extendBytes .empty 0 (pages * pageSize)⟩

/-- The number of bytes. -/
def size (memory : LinearMemory) : Nat := memory.bytes.size

/-- Whether there are no bytes. -/
def isEmpty (memory : LinearMemory) : Bool := memory.size == 0

/-- Refuses a range of bytes that does not lie in memory. -/
def checkRange (memory : LinearMemory) (offset length : UInt64) : Except Failure Unit :=
  if offset.toNat + length.toNat ≤ memory.size then .ok ()
  else .error (.memoryOutOfBounds offset length (UInt64.ofNat memory.size))

/-- So many bytes from an offset on, if they lie in memory. -/
def read (memory : LinearMemory) (offset length : UInt64) : Except Failure ByteArray := do
  memory.checkRange offset length
  pure (memory.bytes.extract offset.toNat (offset.toNat + length.toNat))

/-- The memory with other bytes from an offset on, if they lie in memory. -/
def write (memory : LinearMemory) (offset : UInt64) (data : Bytes) :
    Except Failure LinearMemory := do
  memory.checkRange offset (UInt64.ofNat data.length)
  pure ⟨overwrite memory.bytes offset.toNat data⟩

/-- Memory of the same size with every byte the same. -/
def fill (memory : LinearMemory) (byte : UInt8) : LinearMemory :=
  ⟨extendBytes .empty byte memory.size⟩

end LinearMemory

end TableKernels
