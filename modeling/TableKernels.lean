import TableKernels.Proofs.ByName
import TableKernels.Proofs.Callbacks
import TableKernels.Proofs.Compiled.Baked
import TableKernels.Proofs.Compiled.Independence
import TableKernels.Proofs.Compiled.Meaning
import TableKernels.Proofs.Compiled.Refusal
import TableKernels.Proofs.ConfigText
import TableKernels.Proofs.Customs
import TableKernels.Proofs.Diagnostics
import TableKernels.Proofs.Exports
import TableKernels.Proofs.Fibonacci
import TableKernels.Proofs.Flags
import TableKernels.Proofs.Inspected
import TableKernels.Proofs.Json.Boundary
import TableKernels.Proofs.Limits
import TableKernels.Proofs.Panics
import TableKernels.Proofs.RandomAccess
import TableKernels.Proofs.Stream
import TableKernels.Proofs.Table.Safety
import TableKernels.Proofs.TableFit
import TableKernels.Proofs.Wasm.Text.Spelling
