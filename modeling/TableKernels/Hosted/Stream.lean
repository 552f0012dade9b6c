import TableKernels.Hosted.Kernel

/-!
# The memory stream

The host reads and writes the memory of a module like a file: `getData` and `putData` work at a
cursor and move it, `read` and `write` take an offset and leave the cursor alone. The cursor belongs
to the host and no call of the module moves it. An access whose end wraps around a word or lies
beyond the current size is refused and changes nothing.
-/

namespace TableKernels

namespace HostedKernel

/-- The bytes of the exported memory. -/
def memoryBytes (kernel : HostedKernel) : ByteArray :=
  (kernel.live.store.memoryAt kernel.surface.memory).bytes

/-- The number of bytes of the exported memory. -/
def memorySize (kernel : HostedKernel) : UInt64 := UInt64.ofNat kernel.memoryBytes.size

/-- Whether the exported memory has no bytes. -/
def isMemoryEmpty (kernel : HostedKernel) : Bool := kernel.memorySize == 0

/-- The declared limits of memory and its current size. -/
def memorySizes (kernel : HostedKernel) : MemorySizes :=
  ⟨kernel.limits.minBytes, kernel.limits.maxBytes, kernel.memorySize⟩

/-- The cursor. -/
def position (kernel : HostedKernel) : UInt64 := kernel.host.position

/-- The kernel with its cursor at another place. -/
def withPosition (kernel : HostedKernel) (position : UInt64) : HostedKernel :=
  kernel.withHost { kernel.host with position }

/-- Moves the cursor, at most to the end of memory. -/
def seek (position : UInt64) (kernel : HostedKernel) : Except Failure Unit × HostedKernel :=
  if kernel.memorySize < position then
    (.error (.memoryOutOfBounds position 0 kernel.memorySize), kernel)
  else (.ok (), kernel.withPosition position)

/-- Refuses a range whose end wraps around or lies beyond the size. -/
def checkStream (kernel : HostedKernel) (offset length : UInt64) : Except Failure Unit :=
  let stop := offset + length
  if stop < offset ∨ kernel.memorySize < stop then
    .error (.memoryOutOfBounds offset length kernel.memorySize)
  else .ok ()

/-- The bytes of a range. -/
def read (kernel : HostedKernel) (offset length : UInt64) : Except Failure ByteArray := do
  kernel.checkStream offset length
  pure (kernel.memoryBytes.extract offset.toNat (offset + length).toNat)

/-- Writes bytes into the exported memory at an offset, if they lie in it. -/
def write (offset : UInt64) (data : Bytes) (kernel : HostedKernel) :
    Except Failure Unit × HostedKernel :=
  match kernel.checkStream offset (UInt64.ofNat data.length) with
  | .error failure => (.error failure, kernel)
  | .ok () =>
    let live := kernel.live
    let store := live.store.changeBytes kernel.surface.memory fun bytes =>
      overwrite bytes offset.toNat data
    (.ok (), { kernel with live := { live with store } })

/-- The bytes at the cursor, which moves behind them. -/
def getData (length : UInt64) (kernel : HostedKernel) :
    Except Failure ByteArray × HostedKernel :=
  match kernel.read kernel.position length with
  | .error failure => (.error failure, kernel)
  | .ok bytes => (.ok bytes, kernel.withPosition (kernel.position + length))

/-- Replaces the bytes at the cursor, which moves behind them. -/
def putData (data : Bytes) (kernel : HostedKernel) : Except Failure Unit × HostedKernel :=
  match kernel.write kernel.position data with
  | (.error failure, same) => (.error failure, same)
  | (.ok (), after) =>
    (.ok (), after.withPosition (kernel.position + UInt64.ofNat data.length))

/-- The word at an offset. -/
def readInt64 (kernel : HostedKernel) (offset : UInt64) : Except Failure Int64 := do
  return (LittleEndian.decode (← kernel.read offset 8).toList).toInt64

/-- Replaces the little-endian signed integer at an offset. -/
def writeInt64 (offset : UInt64) (value : Int64) (kernel : HostedKernel) :
    Except Failure Unit × HostedKernel :=
  kernel.write offset (LittleEndian.encode 8 value.toUInt64)

end HostedKernel

end TableKernels
