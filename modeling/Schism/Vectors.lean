import Schism.Arm64
import Schism.Guests
import Schism.HostContext

/-!
# The assembly of the hypervisor (`arch/arm64/start.S`, `vectors_el2.S`, `switch_el2.S`, `el1_vectors.S`)

The listings, instruction by instruction, and the memory that they share with the C code. `start.S` calls
`el2_main`; `vectors_el2.S` and `switch_el2.S` are the two halves of a world switch at EL2; `el1_vectors.S`
runs in the guests. Local labels are symbols too. No time passes while a listing runs.
-/

namespace Schism

open Arm64

/-- The symbols of the listings. -/
inductive Sym where
  | _start
  /-- The label `1` of `_start`. -/
  | _start_1
  | stack_top | el2_main
  | el2_vectors | el2_vector_common
  /-- The label `2` of `el2_vector_common`. -/
  | el2_vector_common_2
  | el2_exception_common | current_trapframe | host_saved_area | vcpu_switch_asm
  | guest_el1_vectors | guest_el1_sync_common
  /-- The label `1` of `guest_el1_sync_common`. -/
  | guest_el1_sync_common_1
  /-- The slot `k` of `guest_el1_vectors`. -/
  | guest_el1_slot (k : Fin 16)
deriving DecidableEq

abbrev Asm := List (Instr SysReg Sym)

/-- The machine `m` on which EL2's listings run, with the addresses of the symbols. -/
def el2_platform (addr : Sym → U64) (m : Machine) : Platform SysReg Sym where
  addr := addr
  read sys r := ({ m with sys := sys } : Machine).mrs r
  elr := .ELR_EL2

/-- The codes of the slots, in the order of the table. -/
def vector_codes : Fin 16 → U64 :=
  ![0x00, 0x01, 0x02, 0x03, 0x10, 0x11, 0x12, 0x13, 0x20, 0x21, 0x22, 0x23, 0x30, 0x31, 0x32, 0x33]

/-- `SLOT`. -/
def slot_code (code : U64) : Asm := [.push 16 16, .mov 16 code, .b .el2_vector_common]

/-- `el2_vector_common` up to its branch. -/
def vector_push : Asm :=
  [.push 16 16, .adrp 16 .current_trapframe, .ldrLo12 16 16 .current_trapframe]

/-- The stores into the frame at `x16`. -/
def vector_save : Asm := [
  .stp 0 1 (.x 16) (8 * 0),
  .stp 2 3 (.x 16) (8 * 2),
  .stp 4 5 (.x 16) (8 * 4),
  .stp 6 7 (.x 16) (8 * 6),
  .stp 8 9 (.x 16) (8 * 8),
  .stp 10 11 (.x 16) (8 * 10),
  .stp 12 13 (.x 16) (8 * 12),
  .stp 14 15 (.x 16) (8 * 14),
  .ldr 0 .sp 16,
  .stp 0 17 (.x 16) (8 * 16),
  .stp 18 19 (.x 16) (8 * 18),
  .stp 20 21 (.x 16) (8 * 20),
  .stp 22 23 (.x 16) (8 * 22),
  .stp 24 25 (.x 16) (8 * 24),
  .stp 26 27 (.x 16) (8 * 26),
  .stp 28 29 (.x 16) (8 * 28),
  .str 30 (.x 16) (8 * 30),
  .mrs 0 .SP_EL1, .str 0 (.x 16) (8 * 31),
  .mrs 0 .ELR_EL2, .str 0 (.x 16) (8 * 32),
  .mrs 0 .SPSR_EL2, .str 0 (.x 16) (8 * 33),
  .mrs 0 .TTBR0_EL1, .mrs 1 .TTBR1_EL1, .stp 0 1 (.x 16) (8 * 34),
  .mrs 0 .TCR_EL1, .mrs 1 .SCTLR_EL1, .stp 0 1 (.x 16) (8 * 36),
  .mrs 0 .TPIDR_EL1, .mrs 1 .CNTKCTL_EL1, .stp 0 1 (.x 16) (8 * 38),
  .mrs 0 .CNTP_CTL_EL0, .mrs 1 .CNTP_CVAL_EL0, .mrs 2 .CNTVOFF_EL2, .add 1 1 2,
  .stp 0 1 (.x 16) (8 * 40),
  .mrs 0 .CNTV_CTL_EL0, .mrs 1 .CNTV_CVAL_EL0, .stp 0 1 (.x 16) (8 * 42)]

/-- The latch is cleared. -/
def vector_clear : Asm := [.adrp 1 .current_trapframe, .strzLo12 1 .current_trapframe]

/-- From the label `2` to the call of the handler. -/
def vector_args : Asm :=
  [.ldr 4 .sp 0, .addSp 16, .ldr 16 .sp 0, .addSp 16,
    .mrs 0 .ESR_EL2, .mrs 1 .ELR_EL2, .mrs 2 .SPSR_EL2, .mrs 3 .FAR_EL2]

/-- From the return of the handler to the `ret`. -/
def vector_restore : Asm := [
  .adrp 2 .host_saved_area,
  .addLo12 2 2 .host_saved_area,
  .ldp 19 20 (.x 2) 0,
  .ldp 21 22 (.x 2) 16,
  .ldp 23 24 (.x 2) 32,
  .ldp 25 26 (.x 2) 48,
  .ldp 27 28 (.x 2) 64,
  .ldp 29 30 (.x 2) 80,
  .ldr 1 (.x 2) 96,
  .movToSp 1]

def vector_common_code : Asm :=
  vector_push ++ .cbz 16 .el2_vector_common_2 :: (vector_save ++ vector_clear ++
    (vector_args ++ .bl .el2_exception_common :: (vector_restore ++ [.ret])))

/-- Where the handler returns to. -/
def vector_return (addr : Sym → U64) : U64 :=
  addr .el2_vector_common_2 + BitVec.ofNat 64 (4 * (vector_args.length + 1))

/-! ## `switch_el2.S` -/

/-- The host's registers go to `host_saved_area`. -/
def switch_save : Asm := [
  .adrp 2 .host_saved_area,
  .addLo12 2 2 .host_saved_area,
  .stp 19 20 (.x 2) 0,
  .stp 21 22 (.x 2) 16,
  .stp 23 24 (.x 2) 32,
  .stp 25 26 (.x 2) 48,
  .stp 27 28 (.x 2) 64,
  .stp 29 30 (.x 2) 80,
  .movFromSp 3,
  .str 3 (.x 2) 96]

/-- The system registers of the guest. -/
def switch_sysregs : Asm := [
  .ldr 1 (.x 0) (8 * 31), .msr .SP_EL1 1,
  .ldr 1 (.x 0) (8 * 32), .msr .ELR_EL2 1,
  .ldr 1 (.x 0) (8 * 33), .msr .SPSR_EL2 1,
  .isb,
  .ldp 1 2 (.x 0) (8 * 34), .msr .TTBR0_EL1 1, .msr .TTBR1_EL1 2,
  .ldp 1 2 (.x 0) (8 * 36), .msr .TCR_EL1 1, .msr .SCTLR_EL1 2,
  .ldp 1 2 (.x 0) (8 * 38), .msr .TPIDR_EL1 1, .msr .CNTKCTL_EL1 2,
  .ldp 1 2 (.x 0) (8 * 40), .mrs 3 .CNTVOFF_EL2, .sub 2 2 3, .and 1 1 0x3,
  .msr .CNTP_CVAL_EL0 2, .msr .CNTP_CTL_EL0 1,
  .ldp 1 2 (.x 0) (8 * 42), .and 1 1 0x3,
  .msr .CNTV_CVAL_EL0 2, .msr .CNTV_CTL_EL0 1,
  .isb]

/-- The general-purpose registers of the guest, `x0` last. -/
def switch_gprs : Asm := [
  .ldp 1 2 (.x 0) (8 * 1),
  .ldp 3 4 (.x 0) (8 * 3),
  .ldp 5 6 (.x 0) (8 * 5),
  .ldp 7 8 (.x 0) (8 * 7),
  .ldp 9 10 (.x 0) (8 * 9),
  .ldp 11 12 (.x 0) (8 * 11),
  .ldp 13 14 (.x 0) (8 * 13),
  .ldp 15 16 (.x 0) (8 * 15),
  .ldp 17 18 (.x 0) (8 * 17),
  .ldp 19 20 (.x 0) (8 * 19),
  .ldp 21 22 (.x 0) (8 * 21),
  .ldp 23 24 (.x 0) (8 * 23),
  .ldp 25 26 (.x 0) (8 * 25),
  .ldp 27 28 (.x 0) (8 * 27),
  .ldp 29 30 (.x 0) (8 * 29),
  .ldr 0 (.x 0) (8 * 0)]

def vcpu_switch_code : Asm := switch_save ++ switch_sysregs ++ switch_gprs ++ [.eret]

/-! ## `el1_vectors.S` -/

/-- Where the linker has put the listings of EL2. -/
structure El2Image (addr : Sym → U64) (code : Code SysReg Sym) : Prop where
  slots : ∀ k : Fin 16, Placed code (addr .el2_vectors + BitVec.ofNat 64 (0x80 * k))
    (slot_code (vector_codes k))
  common : Placed code (addr .el2_vector_common) vector_common_code
  common_2 : addr .el2_vector_common_2 = addr .el2_vector_common + BitVec.ofNat 64
    (4 * (vector_push.length + 1 + (vector_save ++ vector_clear).length))
  switch : Placed code (addr .vcpu_switch_asm) vcpu_switch_code

/-- Where the compiler and the linker have put the objects of the C code. `trapframe_t` is 44 quadwords
long and `host_saved_area` 13. -/
structure El2Data (addr : Sym → U64) where
  /-- The vCPUs that exist. -/
  count : ℕ
  /-- `&vcpu->arch.tf`. -/
  frame : VcpuPtr → U64
  frame_aligned : ∀ p < count, Aligned (frame p)
  frame_ne_null : ∀ p < count, frame p ≠ 0
  latch_aligned : Aligned (addr .current_trapframe)
  area_aligned : Aligned (addr .host_saved_area)
  frames_apart : ∀ p < count, ∀ q < count, p ≠ q → ∀ a, InSlots (frame p) 44 a → ¬ InSlots (frame q) 44 a
  latch_apart : ∀ p < count, ¬ InSlots (frame p) 44 (addr .current_trapframe)
  area_apart : ∀ p < count, ∀ a, InSlots (addr .host_saved_area) 13 a → ¬ InSlots (frame p) 44 a
  latch_area : ¬ InSlots (addr .host_saved_area) 13 (addr .current_trapframe)

namespace El2Data

variable {addr : Sym → U64} (D : El2Data addr)

/-- The addresses of the objects. -/
def Owns (a : U64) : Prop :=
  (∃ p < D.count, InSlots (D.frame p) 44 a) ∨ a = addr .current_trapframe ∨
    InSlots (addr .host_saved_area) 13 a

/-- A stack pointer of EL2 below which the vector can push its two quadwords. -/
structure Stack (sp : U64) : Prop where
  aligned : sp.toNat % 16 = 0
  code_free : ¬ D.Owns (sp - 16 - 16)
  x16_free : ¬ D.Owns (sp - 16)

/-- The pointer in `current_trapframe`. -/
def pointer : Option VcpuPtr → U64
  | none => 0
  | some p => D.frame p

/-- Memory holds the frames and the latch of `s`. -/
structure Holds (mem : Quadwords) (s : State) : Prop where
  frames : ∀ p < D.count, Quads mem (D.frame p) 44 (s.vcpu p).arch.tf.ldr
  latch : mem (addr .current_trapframe) = D.pointer s.current_trapframe
  latched : ∀ p, s.current_trapframe = some p → p < D.count

end El2Data

/-- The exception taken to slot `k` in `c`, when EL2's objects are those of `s`, has become the call of the
handler in `c'`. -/
structure AtHandler {addr : Sym → U64} (D : El2Data addr) (k : Fin 16) (s : State) (c c' : Cpu SysReg) :
    Prop where
  pc : c'.pc = addr .el2_exception_common
  link : c'.x 30 = vector_return addr
  esr : c'.x 0 = s.m.mrs .ESR_EL2
  elr : c'.x 1 = s.m.mrs .ELR_EL2
  spsr : c'.x 2 = s.m.mrs .SPSR_EL2
  far : c'.x 3 = s.m.mrs .FAR_EL2
  code : c'.x 4 = vector_codes k
  /-- The guest's other registers are still live, and nothing is left on the stack. -/
  x : ∀ n, 5 ≤ n → n ≠ 30 → c'.x n = c.x n
  sp : c'.sp = c.sp
  sys : c'.sys = c.sys
  objects : D.Holds c'.mem (el2_vector_common (vector_codes k) s)
  /-- Only the latched frame, the latch and the two quadwords below the stack pointer are written. -/
  memory : ∀ a, (∀ p, s.current_trapframe = some p → ¬ InSlots (D.frame p) 44 a) →
    a ≠ addr .current_trapframe → a ≠ c.sp - 16 → a ≠ c.sp - 16 - 16 → c'.mem a = c.mem a

/-- `host_saved_area` in memory. -/
def AreaAt (addr : Sym → U64) (mem : Quadwords) (area : HostSavedArea) : Prop :=
  Quads mem (addr .host_saved_area) 13 fun k => area (8 * k)

/-! ## A call of `vcpu_switch_asm` -/

/-- The slot that takes the exception from a 64-bit guest. -/
def Exit.slot : Exit → Fin 16
  | .sync _ _ => 8
  | .irq => 9
  | .fiq => 10
  | .serror _ => 11

/-- `vcpu_switch_asm` has entered the vCPU `p`. -/
def entered (s : State) (p : VcpuPtr) (site : CallSite) : Running where
  st := { s with m := vcpu_switch_asm s.m (s.vcpu p).arch.tf }
  vcpu := p
  site := site

/-- The guest of `r` has run from `c` on, its slice `sl` has ended in `c'`, and it has left EL2's objects
alone. -/
structure Taken {addr : Sym → U64} (D : El2Data addr) (r : Running) (sl : Slice) (c c' : Cpu SysReg) :
    Prop where
  pc : c'.pc = addr .el2_vectors + BitVec.ofNat 64 (0x80 * sl.exit.slot)
  x : c'.x = (r.exitMachine sl).x
  sys : c'.sys = (r.exitMachine sl).sys
  sp : c'.sp = c.sp
  objects : ∀ a, D.Owns a → c'.mem a = c.mem a

/-- The handler called in `c` has returned in `c'`. -/
structure HandlerReturned (addr : Sym → U64) (c c' : Cpu SysReg) : Prop where
  pc : c'.pc = c.x 30
  area : ∀ a, InSlots (addr .host_saved_area) 13 a → c'.mem a = c.mem a

/-- The call in `c` has returned in `c'`, as the procedure call standard has it. -/
structure CallReturned (c c' : Cpu SysReg) : Prop where
  pc : c'.pc = c.x 30
  sp : c'.sp = c.sp
  saved : ∀ n, 19 ≤ n → c'.x n = c.x n

end Schism
