import Schism.Machine

/-!
# Virtual CPUs and the state of EL2 (`include/vcpu.h`, the globals of `core/vcpu.c`)

`trapframe_t` is kept with its C fields; `Trapframe.ldr` and `Trapframe.str` give the same memory as
44 eight-byte slots, which is how the assembly addresses it. A `vcpu_t*` is a `VcpuPtr`, a pointer
that may be `NULL` an `Option VcpuPtr`, and distinct pointers point at distinct objects.

Left out of `vcpu_t` are the fields no function reads (`vm`, `kresume` and its arguments) and the
pointer-authentication keys, which the build of the Makefile (no `__ARM_FEATURE_PAUTH`) never
touches.
-/

namespace Schism

/-- `trapframe_t`. -/
@[ext]
structure Trapframe where
  regs : Fin 31 → U64
  sp_el1 : U64
  elr_el1 : U64
  spsr_el1 : U64
  ttbr0_el1 : U64
  ttbr1_el1 : U64
  tcr_el1 : U64
  sctlr_el1 : U64
  tpidr_el1 : U64
  cntkctl_el1 : U64
  cntp_ctl_el0 : U64
  /-- The physical timer's compare value, as a virtual count. -/
  cntp_cval_el0 : U64
  cntv_ctl_el0 : U64
  cntv_cval_el0 : U64

namespace Trapframe

/-- The quadword at byte offset `8 * k`. -/
def ldr (tf : Trapframe) (k : ℕ) : U64 :=
  if h : k < 31 then tf.regs ⟨k, h⟩ else
  match k with
  | 31 => tf.sp_el1
  | 32 => tf.elr_el1
  | 33 => tf.spsr_el1
  | 34 => tf.ttbr0_el1
  | 35 => tf.ttbr1_el1
  | 36 => tf.tcr_el1
  | 37 => tf.sctlr_el1
  | 38 => tf.tpidr_el1
  | 39 => tf.cntkctl_el1
  | 40 => tf.cntp_ctl_el0
  | 41 => tf.cntp_cval_el0
  | 42 => tf.cntv_ctl_el0
  | 43 => tf.cntv_cval_el0
  | _ => 0

/-- Store a quadword at byte offset `8 * k`. -/
def str (tf : Trapframe) (k : ℕ) (v : U64) : Trapframe :=
  if h : k < 31 then { tf with regs := Function.update tf.regs ⟨k, h⟩ v } else
  match k with
  | 31 => { tf with sp_el1 := v }
  | 32 => { tf with elr_el1 := v }
  | 33 => { tf with spsr_el1 := v }
  | 34 => { tf with ttbr0_el1 := v }
  | 35 => { tf with ttbr1_el1 := v }
  | 36 => { tf with tcr_el1 := v }
  | 37 => { tf with sctlr_el1 := v }
  | 38 => { tf with tpidr_el1 := v }
  | 39 => { tf with cntkctl_el1 := v }
  | 40 => { tf with cntp_ctl_el0 := v }
  | 41 => { tf with cntp_cval_el0 := v }
  | 42 => { tf with cntv_ctl_el0 := v }
  | 43 => { tf with cntv_cval_el0 := v }
  | _ => tf

/-- `stp a, b, [tf, #(8 * k)]`. -/
def stp (tf : Trapframe) (k : ℕ) (a b : U64) : Trapframe := (tf.str k a).str (k + 1) b

end Trapframe

/-- The SIMD block of `vcpu_arch_t`. -/
structure Fp where
  used : U8
  fpcr : U32
  fpsr : U32
  vregs : Fin 32 → U64 × U64

/-- The interrupt-controller block of `vcpu_arch_t`. -/
structure Vgic where
  lrs : Fin 16 → U64
  vmcr : U32
  apr : U32

/-- `vcpu_arch_t`. -/
structure VcpuArch where
  vttbr_el2 : U64
  cntvoff_el2 : U64
  /-- Last virtual counter snapshot, to freeze time when descheduled. -/
  cntvct_el0 : U64
  fp : Fp
  sve_used : U8
  pauth_used : U8
  vgic : Vgic
  tf : Trapframe

/-- `vcpu_t`. -/
structure Vcpu where
  arch : VcpuArch
  vcpu_id : U32
  /-- Set to request a yield after a trap. -/
  request_yield : Bool

/-- The identity of a `vcpu_t` object. -/
abbrev VcpuPtr := ℕ

/-- The scheduler's globals. Only the first `VCPU_SCHED_MAX` entries of `runqueue` exist. -/
structure Sched where
  runqueue : ℕ → Option VcpuPtr
  len : ℕ
  idx : ℕ
  current : Option VcpuPtr

/-- A call of the console driver: `console_puts` of a literal, `console_puts` of bytes read through a
pointer, `console_hex64`. -/
inductive Out where
  | puts (s : String)
  | putsBytes (bs : List U8)
  | hex64 (v : U64)
deriving DecidableEq

/-- The machine together with EL2's own memory. -/
structure State where
  m : Machine
  vcpu : VcpuPtr → Vcpu
  /-- The frame that captures the outgoing guest state at the next exit. -/
  current_trapframe : Option VcpuPtr
  sched : Sched
  /-- The static `cached` of `vgic_lr_count`. -/
  vgic_lr_cached : ℕ
  /-- The address the linker gave `guest_el1_vectors`. -/
  guest_el1_vectors : U64
  console : List Out

namespace State

/-- Run an operation of the machine. -/
def onMachine (s : State) (f : Machine → Machine) : State := { s with m := f s.m }

/-- Write through `p->arch`. -/
def onArch (s : State) (p : VcpuPtr) (f : VcpuArch → VcpuArch) : State :=
  { s with vcpu := Function.update s.vcpu p { s.vcpu p with arch := f (s.vcpu p).arch } }

/-- Write through `p->arch.tf`. -/
def onTf (s : State) (p : VcpuPtr) (f : Trapframe → Trapframe) : State :=
  s.onArch p fun a => { a with tf := f a.tf }

/-- `p->request_yield = b`. -/
def setRequestYield (s : State) (p : VcpuPtr) (b : Bool) : State :=
  { s with vcpu := Function.update s.vcpu p { s.vcpu p with request_yield := b } }

def elapse (s : State) : State := s.onMachine Machine.elapse

def msr (s : State) (r : SysReg) (v : U64) : State := s.onMachine (·.msr r v)

def print (s : State) (out : List Out) : State := { s with console := s.console ++ out }

variable (s : State) (p q : VcpuPtr)

@[simp] theorem onMachine_m (f : Machine → Machine) : (s.onMachine f).m = f s.m := rfl
@[simp] theorem onMachine_vcpu (f : Machine → Machine) : (s.onMachine f).vcpu = s.vcpu := rfl
@[simp] theorem onMachine_current_trapframe (f : Machine → Machine) :
    (s.onMachine f).current_trapframe = s.current_trapframe := rfl
@[simp] theorem onMachine_sched (f : Machine → Machine) : (s.onMachine f).sched = s.sched := rfl
@[simp] theorem onMachine_vgic_lr_cached (f : Machine → Machine) :
    (s.onMachine f).vgic_lr_cached = s.vgic_lr_cached := rfl

@[simp] theorem onMachine_guest_el1_vectors (f : Machine → Machine) :
    (s.onMachine f).guest_el1_vectors = s.guest_el1_vectors := rfl

@[simp] theorem onArch_m (f : VcpuArch → VcpuArch) : (s.onArch p f).m = s.m := rfl
@[simp] theorem onArch_current_trapframe (f : VcpuArch → VcpuArch) :
    (s.onArch p f).current_trapframe = s.current_trapframe := rfl
@[simp] theorem onArch_sched (f : VcpuArch → VcpuArch) : (s.onArch p f).sched = s.sched := rfl
@[simp] theorem onArch_vgic_lr_cached (f : VcpuArch → VcpuArch) :
    (s.onArch p f).vgic_lr_cached = s.vgic_lr_cached := rfl
@[simp] theorem onArch_guest_el1_vectors (f : VcpuArch → VcpuArch) :
    (s.onArch p f).guest_el1_vectors = s.guest_el1_vectors := rfl
@[simp] theorem onArch_arch_self (f : VcpuArch → VcpuArch) :
    ((s.onArch p f).vcpu p).arch = f (s.vcpu p).arch := by simp [onArch]
theorem onArch_vcpu_of_ne {p q : VcpuPtr} (f : VcpuArch → VcpuArch) (h : q ≠ p) :
    (s.onArch p f).vcpu q = s.vcpu q := by simp [onArch, h]
@[simp] theorem onArch_request_yield (f : VcpuArch → VcpuArch) :
    ((s.onArch p f).vcpu q).request_yield = (s.vcpu q).request_yield := by
  by_cases h : q = p
  · subst h; simp [onArch]
  · rw [onArch_vcpu_of_ne _ _ h]

@[simp] theorem setRequestYield_m (b : Bool) : (s.setRequestYield p b).m = s.m := rfl
@[simp] theorem setRequestYield_current_trapframe (b : Bool) :
    (s.setRequestYield p b).current_trapframe = s.current_trapframe := rfl
@[simp] theorem setRequestYield_sched (b : Bool) : (s.setRequestYield p b).sched = s.sched := rfl
@[simp] theorem setRequestYield_vgic_lr_cached (b : Bool) :
    (s.setRequestYield p b).vgic_lr_cached = s.vgic_lr_cached := rfl
@[simp] theorem setRequestYield_self (b : Bool) :
    ((s.setRequestYield p b).vcpu p).request_yield = b := by simp [setRequestYield]
theorem setRequestYield_vcpu_of_ne {p q : VcpuPtr} (b : Bool) (h : q ≠ p) :
    (s.setRequestYield p b).vcpu q = s.vcpu q := by simp [setRequestYield, h]
@[simp] theorem setRequestYield_arch (b : Bool) :
    ((s.setRequestYield p b).vcpu q).arch = (s.vcpu q).arch := by
  by_cases h : q = p
  · subst h; simp [setRequestYield]
  · rw [setRequestYield_vcpu_of_ne _ _ h]

@[simp] theorem print_m (out : List Out) : (s.print out).m = s.m := rfl
@[simp] theorem print_vcpu (out : List Out) : (s.print out).vcpu = s.vcpu := rfl
@[simp] theorem print_current_trapframe (out : List Out) :
    (s.print out).current_trapframe = s.current_trapframe := rfl
@[simp] theorem print_sched (out : List Out) : (s.print out).sched = s.sched := rfl
@[simp] theorem print_vgic_lr_cached (out : List Out) :
    (s.print out).vgic_lr_cached = s.vgic_lr_cached := rfl

end State

end Schism
