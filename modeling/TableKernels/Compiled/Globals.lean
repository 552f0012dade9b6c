import TableKernels.Compiled.Guard

/-!
# Counter and snapshot

The two entry points that move a value into a global: one takes the first word of memory, the other
what the imported `callback` makes of the counter.
-/

namespace TableKernels.Compiled

open Wasm

/-- The body of `update_memory()`. -/
def updateMemory : Body where
  locals := []
  code := [const32 0, .op (.i64Load (.first 3 0)), .op (.globalSet snapshotIndex)]

/-- The body of `invoke_callback()`. -/
def invokeCallback : Body where
  locals := []
  code := [.op (.globalGet counterIndex), .call callbackIndex, .op (.globalSet counterIndex)]

end TableKernels.Compiled
