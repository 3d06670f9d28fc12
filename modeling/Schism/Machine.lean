import Mathlib

/-!
# The AArch64 machine the hypervisor runs on

The part of the CPU that EL2 code and the guests share: the general-purpose and SIMD registers, the
system registers, the system counter and memory as EL2 sees it. A register that no instruction of
the hypervisor names and no guest can use to observe another guest is left out.

Time is an oracle. `clock k` is the physical count at the `k`-th instant and `instant` says which one
is current; every read of a counter is preceded by `elapse`, so any number of host ticks can pass
between two reads (the differences of `clock` are taken modulo `2^64`).
-/

namespace Schism

abbrev U8 := BitVec 8
abbrev U16 := BitVec 16
abbrev U32 := BitVec 32
abbrev U64 := BitVec 64

-- numerals name the registers of the two register files
instance neZeroGpr : NeZero 31 := ⟨by decide⟩
instance neZeroSimd : NeZero 32 := ⟨by decide⟩

/-- The system registers, under their architectural names. -/
inductive SysReg where
  | SP_EL0 | SP_EL1 | ELR_EL1 | SPSR_EL1 | ESR_EL1 | FAR_EL1 | VBAR_EL1 | MAIR_EL1
  | TTBR0_EL1 | TTBR1_EL1 | TCR_EL1 | SCTLR_EL1 | TPIDR_EL0 | TPIDR_EL1 | CONTEXTIDR_EL1
  | CNTKCTL_EL1 | CNTP_CTL_EL0 | CNTP_CVAL_EL0 | CNTV_CTL_EL0 | CNTV_CVAL_EL0
  | ELR_EL2 | SPSR_EL2 | ESR_EL2 | FAR_EL2 | HPFAR_EL2 | VTCR_EL2 | VTTBR_EL2 | CNTVOFF_EL2
  | MAIR_EL2 | HCR_EL2 | CNTHCTL_EL2 | ID_AA64MMFR1_EL1
  | FPCR | FPSR
  /-- The list registers of the virtual interrupt controller. -/
  | ICH_LR (n : Fin 16)
  | ICH_VTR | ICH_VMCR | ICH_AP0R0
deriving DecidableEq

/-- The registers a guest can change without trapping. The EL2 registers are out of its reach, and
`CNTHCTL_EL2 = 0` traps every access to the physical timer. The list registers, `ICH_VMCR` and
`ICH_AP0R0` change when the guest uses its virtual CPU interface. -/
def SysReg.guestWritable : SysReg → Bool
  | .CNTP_CTL_EL0 | .CNTP_CVAL_EL0 => false
  | .ELR_EL2 | .SPSR_EL2 | .ESR_EL2 | .FAR_EL2 | .HPFAR_EL2 | .VTCR_EL2 | .VTTBR_EL2
  | .CNTVOFF_EL2 | .MAIR_EL2 | .HCR_EL2 | .CNTHCTL_EL2 => false
  | .ID_AA64MMFR1_EL1 | .ICH_VTR => false
  | _ => true

structure Machine where
  /-- The general-purpose registers `x0`-`x30`. -/
  x : Fin 31 → U64
  sys : SysReg → U64
  /-- `Q0`-`Q31`, two 64-bit lanes each. -/
  q : Fin 32 → U64 × U64
  /-- Memory contents. -/
  mem : U64 → U8
  /-- The addresses that EL2's own stage-1 translation maps readable. -/
  el2Readable : U64 → Bool
  /-- The physical count at each instant of the run. -/
  clock : ℕ → U64
  /-- The current instant. -/
  instant : ℕ
  /-- `PSTATE.I` at EL2. -/
  irqMasked : Bool

namespace Machine

/-- `mrs CNTPCT_EL0`. -/
def cntpct (m : Machine) : U64 := m.clock m.instant

/-- `mrs CNTVCT_EL0`: the hardware subtracts `CNTVOFF_EL2` from the physical count. -/
def cntvct (m : Machine) : U64 := m.cntpct - m.sys .CNTVOFF_EL2

/-- Some host time passes. -/
def elapse (m : Machine) : Machine := { m with instant := m.instant + 1 }

/-- The value a timer's `CTL` register reads as: `ENABLE` and `IMASK` as they were written, and
`ISTATUS` (bit 2) when an enabled timer's count has reached its compare value. -/
def timerCtl (ctl cval count : U64) : U64 :=
  (ctl &&& 0x3) ||| (if ctl.getLsbD 0 && decide (cval ≤ count) then 0x4 else 0)

/-- `mrs`. -/
def mrs (m : Machine) : SysReg → U64
  | .CNTP_CTL_EL0 => timerCtl (m.sys .CNTP_CTL_EL0) (m.sys .CNTP_CVAL_EL0) m.cntpct
  | .CNTV_CTL_EL0 => timerCtl (m.sys .CNTV_CTL_EL0) (m.sys .CNTV_CVAL_EL0) m.cntvct
  | r => m.sys r

/-- `msr`. -/
def msr (m : Machine) (r : SysReg) (v : U64) : Machine :=
  { m with sys := Function.update m.sys r v }

/-- Write a general-purpose register. -/
def setX (m : Machine) (i : Fin 31) (v : U64) : Machine :=
  { m with x := Function.update m.x i v }

@[simp] theorem elapse_x (m : Machine) : m.elapse.x = m.x := rfl
@[simp] theorem elapse_sys (m : Machine) : m.elapse.sys = m.sys := rfl
@[simp] theorem elapse_q (m : Machine) : m.elapse.q = m.q := rfl
@[simp] theorem elapse_clock (m : Machine) : m.elapse.clock = m.clock := rfl
@[simp] theorem elapse_instant (m : Machine) : m.elapse.instant = m.instant + 1 := rfl

@[simp] theorem msr_x (m : Machine) (r : SysReg) (v : U64) : (m.msr r v).x = m.x := rfl
@[simp] theorem msr_q (m : Machine) (r : SysReg) (v : U64) : (m.msr r v).q = m.q := rfl
@[simp] theorem msr_clock (m : Machine) (r : SysReg) (v : U64) : (m.msr r v).clock = m.clock := rfl
@[simp] theorem msr_instant (m : Machine) (r : SysReg) (v : U64) :
    (m.msr r v).instant = m.instant := rfl

@[simp] theorem msr_el2Readable (m : Machine) (r : SysReg) (v : U64) :
    (m.msr r v).el2Readable = m.el2Readable := rfl

@[simp] theorem setX_q (m : Machine) (i : Fin 31) (v : U64) : (m.setX i v).q = m.q := rfl
@[simp] theorem setX_clock (m : Machine) (i : Fin 31) (v : U64) : (m.setX i v).clock = m.clock := rfl
@[simp] theorem setX_instant (m : Machine) (i : Fin 31) (v : U64) :
    (m.setX i v).instant = m.instant := rfl
@[simp] theorem setX_el2Readable (m : Machine) (i : Fin 31) (v : U64) :
    (m.setX i v).el2Readable = m.el2Readable := rfl

@[simp] theorem msr_sys_self (m : Machine) (r : SysReg) (v : U64) : (m.msr r v).sys r = v := by
  simp [msr]

theorem msr_sys_of_ne (m : Machine) {r r' : SysReg} (v : U64) (h : r' ≠ r) :
    (m.msr r v).sys r' = m.sys r' := by
  simp [msr, h]

theorem msr_sys (m : Machine) (r r' : SysReg) (v : U64) :
    (m.msr r v).sys r' = if r' = r then v else m.sys r' := by
  by_cases h : r' = r
  · subst h; simp
  · simp [msr_sys_of_ne _ _ h, h]

/-- Reading a `CTL` register returns the enable and mask bits last written. -/
theorem timerCtl_and_three (ctl cval count : U64) : timerCtl ctl cval count &&& 0x3 = ctl &&& 0x3 := by
  have hctl : ctl &&& 0x3 &&& 0x3 = ctl &&& 0x3 := by rw [BitVec.and_assoc, BitVec.and_self]
  unfold timerCtl
  rw [BitVec.and_or_distrib_right, hctl]
  split <;> simp

end Machine

end Schism
