import Schism.Proofs.El2BootProofs
import Schism.Proofs.IsolationProofs
import Schism.Proofs.VectorsProofs

/-!
# The first instructions

`_start` leaves the CPU with the stack of the linker script and the vector table of `vectors_el2.S`. Behind
the call of `el2_main` it waits for ever.
-/

namespace Schism

open Arm64

section Start

variable {addr : Sym → U64} {code : Code StartReg Sym} {K : LinkLayout} {c c₂ c₃ : Cpu StartReg}

end Start

end Schism
