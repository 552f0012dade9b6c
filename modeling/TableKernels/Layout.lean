/-!
# Memory layout and limits

The kernels and their hosts share one picture of linear memory. Bytes below `heapStart` belong to
the host; a kernel's table lies from `heapStart` upward and is scratch that nothing reads after the
call. `pagesForTable` is the page count that this picture asks for.
-/

namespace TableKernels

/-- The bytes of a page of linear memory. -/
def pageSize : Nat := 65536

/-- The first byte of kernel scratch space. -/
def heapStart : Nat := 65536

/-- The most pages a 32-bit linear memory can have. -/
def pageCeiling : Nat := 65536

/-- The bytes that a snapshot captures. -/
def snapshotBytes : Nat := 8

/-- The greatest `n` whose table of `n + 2` entries has 32-bit indices. -/
def fibonacciMax : Int := 2147483645

/-- The greatest `limit` whose table of `limit + 1` flags has 32-bit indices. -/
def sieveMax : Int := 2147483646

/-- The pages that a table of so many bytes needs above the host's region. -/
def pagesForTable (bytes : Nat) : Nat :=
  (heapStart + bytes + pageSize - 1) / pageSize

end TableKernels
