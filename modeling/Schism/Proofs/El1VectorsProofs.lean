import Schism.Proofs.RunLogProofs
import Schism.Proofs.VectorsProofs

/-!
# The exceptions that a guest takes itself

A synchronous exception at EL1 is passed on with the guest's own syndrome, which EL2 prints before it hangs;
after every other exception the guest spins.
-/

namespace Schism

open Arm64

section Report

variable {addr : Sym → U64} {code : Code SysReg Sym} {c c' : Cpu SysReg} {r : Running} {sl : Slice}
  {esr far : U64}

end Report

end Schism
