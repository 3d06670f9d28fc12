import Schism.Run
import Schism.S2Mmu

/-!
# Starting the guests (`core/main.c`)

`el2_main` from the stage-2 tables on: `.bss` has been cleared, the tables are built and programmed,
and the two guests are set up and registered. The console output and EL2's own translation are not
part of it.
-/

namespace Schism

/-- A `vcpu_t` after `memclr`. -/
def Vcpu.cleared : Vcpu where
  arch := {
    vttbr_el2 := 0
    cntvoff_el2 := 0
    cntvct_el0 := 0
    fp := { used := 0, fpcr := 0, fpsr := 0, vregs := fun _ => (0, 0) }
    sve_used := 0
    pauth_used := 0
    vgic := { lrs := fun _ => 0, vmcr := 0, apr := 0 }
    tf := {
      regs := fun _ => 0
      sp_el1 := 0
      elr_el1 := 0
      spsr_el1 := 0
      ttbr0_el1 := 0
      ttbr1_el1 := 0
      tcr_el1 := 0
      sctlr_el1 := 0
      tpidr_el1 := 0
      cntkctl_el1 := 0
      cntp_ctl_el0 := 0
      cntp_cval_el0 := 0
      cntv_ctl_el0 := 0
      cntv_cval_el0 := 0 } }
  vcpu_id := 0
  request_yield := false

/-- EL2's globals after `bss_clear`, on the machine `m`. -/
def bss_clear (m : Machine) (guest_el1_vectors : U64) : State where
  m := m
  vcpu := fun _ => Vcpu.cleared
  current_trapframe := none
  sched := .empty
  vgic_lr_cached := 0
  guest_el1_vectors := guest_el1_vectors
  console := []

def vcpu_init_slot (vcpu : VcpuPtr) (id : U32) (entry stack vttbr_snapshot : U64) (s : State) :
    State :=
  let s := { s with vcpu := Function.update s.vcpu vcpu Vcpu.cleared }
  let s := s.onArch vcpu fun a => { a with cntvoff_el2 := 0 }
  let m := s.m
  let s := s.onTf vcpu fun tf => { tf with
    ttbr0_el1 := m.mrs .TTBR0_EL1
    ttbr1_el1 := m.mrs .TTBR1_EL1
    tcr_el1 := m.mrs .TCR_EL1
    sctlr_el1 := m.mrs .SCTLR_EL1
    tpidr_el1 := m.mrs .TPIDR_EL1
    cntkctl_el1 := m.mrs .CNTKCTL_EL1
    cntp_ctl_el0 := m.mrs .CNTP_CTL_EL0
    cntp_cval_el0 := m.mrs .CNTP_CVAL_EL0 + (s.vcpu vcpu).arch.cntvoff_el2
    cntv_ctl_el0 := m.mrs .CNTV_CTL_EL0
    cntv_cval_el0 := m.mrs .CNTV_CVAL_EL0
    elr_el1 := entry
    sp_el1 := stack
    regs := Function.update tf.regs 0 (id.signExtend 64)
    spsr_el1 := 0x5 ||| (0xf <<< 6) }
  let s := s.onArch vcpu fun a => { a with vttbr_el2 := vttbr_snapshot }
  let s := s.elapse
  let cntpct := s.m.cntpct
  let s := s.onArch vcpu fun a => { a with cntvct_el0 := cntpct }
  { s with vcpu := Function.update s.vcpu vcpu { s.vcpu vcpu with vcpu_id := id } }

/-- `el2_main` from the snapshot of `VTTBR_EL2` to the call of `vcpu_run`, with the link addresses of
the two guests' entry points. The vCPUs of `vcpu_pool` are `0` and `1`. -/
def boot_vcpus (guest_counter_os guest_memwalk_os : U64) (s : State) : State :=
  let vttbr_snapshot := s.m.mrs .VTTBR_EL2
  let s := vcpu_init_slot 0 0 guest_counter_os 0x40080000 vttbr_snapshot s
  let s := vcpu_init_slot 1 1 guest_memwalk_os 0x400A0000 vttbr_snapshot s
  s.schedule [.register (some 0), .register (some 1), .setCurrent (some 0)]

/-- The arguments of `s2_build_tables_identity`. -/
structure S2Args where
  ipa : U64
  pa : U64
  vm_size : U64
  vm_count : U32
  guard_bytes : U64
  read : U8
  write : U8
  exec : U8

/-- `el2_main` up to the call of `vcpu_run`, with the stage-2 layout `a`; `none` when the table pools
are exhausted. -/
def el2_boot (L : S2Layout) (a : S2Args) (guest_counter_os guest_memwalk_os guest_el1_vectors : U64)
    (m : Machine) : Option (S2Tables × State) := do
  let s := bss_clear m guest_el1_vectors
  let t ← S2.s2_build_tables_identity L a.ipa a.pa a.vm_size a.vm_count a.guard_bytes a.read a.write
    a.exec S2Tables.cleared
  let s := s.onMachine (s2_program_regs_and_enable L)
  pure (t, boot_vcpus guest_counter_os guest_memwalk_os s)

/-- The stage-2 layout of `el2_main`. -/
def el2_main_args : S2Args where
  ipa := 0x40000000
  pa := 0x40000000
  vm_size := 0x40000000
  vm_count := 1
  guard_bytes := S2_VM_GUARD_BYTES
  read := 1
  write := 1
  exec := 1

def el2_main (L : S2Layout) (guest_counter_os guest_memwalk_os guest_el1_vectors : U64)
    (m : Machine) : Option (S2Tables × State) :=
  el2_boot L el2_main_args guest_counter_os guest_memwalk_os guest_el1_vectors m

end Schism
