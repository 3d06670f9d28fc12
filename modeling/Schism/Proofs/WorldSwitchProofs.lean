import Schism.WorldSwitch
import Schism.Proofs.SwitchProofs

/-!
# What one `world_switch` does

`switch_out_arch` is everything the save half writes, `switch_in_arch` and `switch_in_sys` everything
the entry half writes. The rest are the consequences for `world_switch` that the proofs about runs
use: who is latched, what is loaded, and what stays unchanged.
-/

namespace Schism

variable (s : State) (p target : VcpuPtr)

/-! ## SIMD state -/

/-- The sixteen `stp` of `save_fp` cover the register file. -/
theorem fold_stpQ (m : Machine) (vregs : Fin 32 → U64 × U64) : fpPairs.foldl (stpQ m) vregs = m.q := by
  funext i
  fin_cases i <;> rfl

/-- The sixteen `ldp` of `restore_fp` cover the register file. -/
theorem fold_ldpQ (vregs q : Fin 32 → U64 × U64) : fpPairs.foldl (ldpQ vregs) q = vregs := by
  funext i
  fin_cases i <;> rfl

/-! ## The number of list registers -/

theorem vgic_detect_lr_count_eq (m : Machine) :
    vgic_detect_lr_count m = (m.sys .ICH_VTR &&& 0xf).toNat + 1 := by
  have h : (m.sys .ICH_VTR &&& 0xf).toNat < 16 := by
    rw [BitVec.toNat_and]
    exact lt_of_le_of_lt Nat.and_le_right (by decide)
  exact if_neg (show ¬ (m.sys .ICH_VTR &&& 0xf).toNat + 1 > 16 by omega)

/-- The cache of `vgic_lr_count` is empty or holds the detected count. -/
def LrCacheOk (s : State) : Prop :=
  s.vgic_lr_cached = 0 ∨ s.vgic_lr_cached = vgic_detect_lr_count s.m

theorem vgic_lr_count_of_empty {s : State} (h : s.vgic_lr_cached = 0) :
    vgic_lr_count s = vgic_detect_lr_count s.m := by
  have hpos := vgic_detect_lr_count_eq s.m
  simp only [vgic_lr_count, h, if_true]
  rw [if_neg (by omega)]

theorem vgic_lr_count_pos : 0 < vgic_lr_count s := by
  by_cases h : s.vgic_lr_cached = 0
  · rw [vgic_lr_count_of_empty h, vgic_detect_lr_count_eq]
    omega
  · rw [vgic_lr_count, if_neg h]
    omega

theorem vgic_lr_count_eq {s : State} (h : LrCacheOk s) : vgic_lr_count s = vgic_detect_lr_count s.m := by
  by_cases h0 : s.vgic_lr_cached = 0
  · exact vgic_lr_count_of_empty h0
  · rw [vgic_lr_count, if_neg h0]
    exact h.resolve_left h0

/-! ## The save half -/

/-- Everything `switch_out` writes. -/
theorem switch_out_arch :
    ((switch_out p s).vcpu p).arch = { (s.vcpu p).arch with
      cntvct_el0 := s.m.elapse.cntvct
      fp := { used := 1
              fpcr := (s.m.sys .FPCR).setWidth 32
              fpsr := (s.m.sys .FPSR).setWidth 32
              vregs := s.m.q }
      sve_used := 0
      pauth_used := 0
      vgic := { lrs := fun n => if vgic_lr_count s > n.val then s.m.sys (.ICH_LR n)
                  else (s.vcpu p).arch.vgic.lrs n
                vmcr := (s.m.sys .ICH_VMCR).setWidth 32
                apr := (s.m.sys .ICH_AP0R0).setWidth 32 } } := by
  simp only [switch_out, save_vgic, save_pauth, save_sve, save_fp, State.onArch_arch_self,
    fold_stpQ, cacheLrCount]
  rfl

theorem switch_out_vcpu_of_ne {q p : VcpuPtr} (h : q ≠ p) : (switch_out p s).vcpu q = s.vcpu q := by
  simp only [switch_out, save_vgic, save_pauth, save_sve, save_fp, cacheLrCount,
    State.onArch_vcpu_of_ne _ _ h, State.elapse, State.onMachine_vcpu]

/-! ## The entry half -/

/-- The counter offset that `switch_in` programs. -/
def entryOffset (target : VcpuPtr) (s : State) : U64 :=
  (s.vcpu target).arch.cntvct_el0 - s.m.elapse.cntpct

theorem vgic_lr_count_congr {s s' : State} (hc : s'.vgic_lr_cached = s.vgic_lr_cached)
    (hv : s'.m.sys .ICH_VTR = s.m.sys .ICH_VTR) : vgic_lr_count s' = vgic_lr_count s := by
  have hd : vgic_detect_lr_count s'.m = vgic_detect_lr_count s.m := by
    rw [vgic_detect_lr_count_eq, vgic_detect_lr_count_eq, hv]
  simp only [vgic_lr_count, hc, hd]

@[simp] theorem restore_vgic_vcpu : (restore_vgic p s).vcpu = s.vcpu := rfl

theorem restore_vgic_sys (r : SysReg) :
    (restore_vgic p s).m.sys r = match r with
      | .ICH_LR n => if vgic_lr_count s > n.val then (s.vcpu p).arch.vgic.lrs n
          else s.m.sys (.ICH_LR n)
      | .ICH_VMCR => (s.vcpu p).arch.vgic.vmcr.setWidth 64
      | .ICH_AP0R0 => (s.vcpu p).arch.vgic.apr.setWidth 64
      | r => s.m.sys r := by
  cases r <;> rfl

/-- The machine after `restore_fp` of the block `fp`. -/
def Machine.loadFp (m : Machine) (fp : Fp) : Machine :=
  if fp.used = 0 then m
  else ({ m with q := fp.vregs }.msr .FPCR (fp.fpcr.setWidth 64)).msr .FPSR (fp.fpsr.setWidth 64)

theorem restore_fp_eq : restore_fp p s = s.onMachine (·.loadFp (s.vcpu p).arch.fp) := by
  unfold restore_fp Machine.loadFp
  by_cases h : (s.vcpu p).arch.fp.used = 0
  · simp only [h, if_true]; rfl
  · simp only [h, if_false, fold_ldpQ]; rfl

namespace Machine

variable (m : Machine) (fp : Fp)

@[simp] theorem loadFp_clock : (m.loadFp fp).clock = m.clock := by
  unfold loadFp; split <;> rfl

@[simp] theorem loadFp_instant : (m.loadFp fp).instant = m.instant := by
  unfold loadFp; split <;> rfl

theorem loadFp_q : (m.loadFp fp).q = if fp.used = 0 then m.q else fp.vregs := by
  unfold loadFp; split <;> rfl

theorem loadFp_sys (r : SysReg) :
    (m.loadFp fp).sys r = match r with
      | .FPCR => if fp.used = 0 then m.sys .FPCR else fp.fpcr.setWidth 64
      | .FPSR => if fp.used = 0 then m.sys .FPSR else fp.fpsr.setWidth 64
      | r => m.sys r := by
  unfold loadFp
  split <;> cases r <;> rfl

end Machine

/-- `switch_in` before it calls `vcpu_switch_asm`. -/
def switch_in_prepare (target : VcpuPtr) (s : State) : State :=
  restore_fp target (restore_vgic target (program_cntvoff target
    (s.msr .VTTBR_EL2 (s.vcpu target).arch.vttbr_el2)))

theorem switch_in_prepare_vcpu :
    (switch_in_prepare target s).vcpu = (s.onArch target fun a =>
      { a with cntvoff_el2 := entryOffset target s }).vcpu := by
  simp only [switch_in_prepare, restore_fp_eq, State.onMachine_vcpu, restore_vgic_vcpu]
  rfl

theorem switch_in_prepare_tf (q : VcpuPtr) :
    ((switch_in_prepare target s).vcpu q).arch.tf = (s.vcpu q).arch.tf := by
  rw [switch_in_prepare_vcpu]
  by_cases h : q = target
  · subst h; simp
  · rw [State.onArch_vcpu_of_ne _ _ h]

/-- Every system register when `vcpu_switch_asm` is called. -/
theorem switch_in_prepare_sys (r : SysReg) :
    (switch_in_prepare target s).m.sys r = match r with
      | .VTTBR_EL2 => (s.vcpu target).arch.vttbr_el2
      | .CNTVOFF_EL2 => entryOffset target s
      | .ICH_LR n => if vgic_lr_count s > n.val then (s.vcpu target).arch.vgic.lrs n
          else s.m.sys (.ICH_LR n)
      | .ICH_VMCR => (s.vcpu target).arch.vgic.vmcr.setWidth 64
      | .ICH_AP0R0 => (s.vcpu target).arch.vgic.apr.setWidth 64
      | .FPCR => if (s.vcpu target).arch.fp.used = 0 then s.m.sys .FPCR
          else (s.vcpu target).arch.fp.fpcr.setWidth 64
      | .FPSR => if (s.vcpu target).arch.fp.used = 0 then s.m.sys .FPSR
          else (s.vcpu target).arch.fp.fpsr.setWidth 64
      | r => s.m.sys r := by
  have ha : ((program_cntvoff target (s.msr .VTTBR_EL2 (s.vcpu target).arch.vttbr_el2)).vcpu
      target).arch = { (s.vcpu target).arch with cntvoff_el2 := entryOffset target s } := by
    simp only [program_cntvoff, State.msr, State.onMachine_vcpu, State.onArch_arch_self]
    rfl
  have hc : vgic_lr_count (program_cntvoff target (s.msr .VTTBR_EL2
      (s.vcpu target).arch.vttbr_el2)) = vgic_lr_count s := vgic_lr_count_congr rfl rfl
  have hsys : ∀ r', (program_cntvoff target (s.msr .VTTBR_EL2
      (s.vcpu target).arch.vttbr_el2)).m.sys r' = if r' = .CNTVOFF_EL2 then entryOffset target s
        else if r' = .VTTBR_EL2 then (s.vcpu target).arch.vttbr_el2 else s.m.sys r' := by
    intro r'
    simp only [program_cntvoff, State.msr, State.elapse, State.onMachine_m, State.onArch_m,
      Machine.msr_sys, Machine.elapse_sys]
    rfl
  unfold switch_in_prepare
  cases r <;> simp [restore_fp_eq, Machine.loadFp_sys, restore_vgic_sys, hsys, hc, ha]

theorem switch_in_prepare_q :
    (switch_in_prepare target s).m.q = if (s.vcpu target).arch.fp.used = 0 then s.m.q
      else (s.vcpu target).arch.fp.vregs := by
  have ha : ((restore_vgic target (program_cntvoff target (s.msr .VTTBR_EL2
      (s.vcpu target).arch.vttbr_el2))).vcpu target).arch.fp = (s.vcpu target).arch.fp := by
    simp [program_cntvoff, State.msr]
    rfl
  unfold switch_in_prepare
  rw [restore_fp_eq, State.onMachine_m, Machine.loadFp_q, ha]
  rfl

theorem switch_in_prepare_guest_el1_vectors :
    (switch_in_prepare target s).guest_el1_vectors = s.guest_el1_vectors := by
  simp only [switch_in_prepare, restore_fp_eq, State.onMachine_guest_el1_vectors]
  rfl

theorem switch_in_m :
    (switch_in target s).m = vcpu_switch_asm
      ((switch_in_prepare target s).m.msr .VBAR_EL1 s.guest_el1_vectors) (s.vcpu target).arch.tf := by
  have h : switch_in target s = ({ (switch_in_prepare target s).msr .VBAR_EL1
      (switch_in_prepare target s).guest_el1_vectors with current_trapframe := some target }.print
      [.puts "Switching to VCPU ",
        .hex64 (((switch_in_prepare target s).vcpu target).vcpu_id.signExtend 64),
        .puts "\n"]).onMachine
      (vcpu_switch_asm · ((switch_in_prepare target s).vcpu target).arch.tf) := rfl
  rw [h, switch_in_prepare_tf, switch_in_prepare_guest_el1_vectors]
  rfl

theorem switch_in_vcpu :
    (switch_in target s).vcpu = (s.onArch target fun a =>
      { a with cntvoff_el2 := entryOffset target s }).vcpu :=
  switch_in_prepare_vcpu s target

@[simp] theorem switch_in_sched : (switch_in target s).sched = s.sched := by
  have h : (switch_in target s).sched = (switch_in_prepare target s).sched := rfl
  rw [h]
  simp only [switch_in_prepare, restore_fp_eq, State.onMachine_sched]
  rfl

@[simp] theorem switch_in_guest_el1_vectors :
    (switch_in target s).guest_el1_vectors = s.guest_el1_vectors :=
  switch_in_prepare_guest_el1_vectors s target

@[simp] theorem switch_in_current_trapframe :
    (switch_in target s).current_trapframe = some target := rfl

@[simp] theorem switch_in_vgic_lr_cached :
    (switch_in target s).vgic_lr_cached = vgic_lr_count s := by
  have h : (switch_in target s).vgic_lr_cached = (switch_in_prepare target s).vgic_lr_cached := rfl
  rw [h]
  simp only [switch_in_prepare, restore_fp_eq, State.onMachine_vgic_lr_cached]
  exact vgic_lr_count_congr rfl rfl

@[simp] theorem switch_in_clock : (switch_in target s).m.clock = s.m.clock := by
  rw [switch_in_m, vcpu_switch_asm_clock, Machine.msr_clock]
  simp only [switch_in_prepare, restore_fp_eq, State.onMachine_m, Machine.loadFp_clock]
  rfl

@[simp] theorem switch_in_instant : (switch_in target s).m.instant = s.m.instant + 1 := by
  rw [switch_in_m, vcpu_switch_asm_instant, Machine.msr_instant]
  simp only [switch_in_prepare, restore_fp_eq, State.onMachine_m, Machine.loadFp_instant]
  rfl

/-! ## The whole switch -/

/-- `world_switch` before it turns to the target. -/
def switch_leave (src : Option VcpuPtr) (s : State) : State :=
  match src with
  | none => s.onMachine fun m => { m with irqMasked := true }
  | some p => switch_out p (s.onMachine fun m => { m with irqMasked := true })

variable (src : Option VcpuPtr)

theorem world_switch_eq : world_switch src target s = switch_in target (switch_leave src s) := by
  cases src <;> rfl

@[simp] theorem switch_leave_sys : (switch_leave src s).m.sys = s.m.sys := by cases src <;> rfl
@[simp] theorem switch_leave_q : (switch_leave src s).m.q = s.m.q := by cases src <;> rfl
@[simp] theorem switch_leave_clock : (switch_leave src s).m.clock = s.m.clock := by cases src <;> rfl
@[simp] theorem switch_leave_sched : (switch_leave src s).sched = s.sched := by cases src <;> rfl
@[simp] theorem switch_leave_guest_el1_vectors :
    (switch_leave src s).guest_el1_vectors = s.guest_el1_vectors := by cases src <;> rfl

theorem switch_leave_instant :
    (switch_leave src s).m.instant = s.m.instant + if src.isSome then 1 else 0 := by
  cases src <;> rfl

theorem switch_leave_lr_count : vgic_lr_count (switch_leave src s) = vgic_lr_count s := by
  cases src with
  | none => rfl
  | some p => exact if_neg (vgic_lr_count_pos s).ne'

theorem switch_leave_vcpu_of_ne {src : Option VcpuPtr} {q : VcpuPtr} (h : src ≠ some q) :
    (switch_leave src s).vcpu q = s.vcpu q := by
  cases src with
  | none => rfl
  | some p => exact switch_out_vcpu_of_ne _ fun hq => h (by rw [hq])

theorem switch_leave_tf (q : VcpuPtr) :
    ((switch_leave src s).vcpu q).arch.tf = (s.vcpu q).arch.tf := by
  by_cases h : src = some q
  · subst h
    simp only [switch_leave, switch_out_arch, State.onMachine_vcpu]
  · rw [switch_leave_vcpu_of_ne s h]

theorem switch_leave_request_yield (q : VcpuPtr) :
    ((switch_leave src s).vcpu q).request_yield = (s.vcpu q).request_yield := by
  cases src with
  | none => rfl
  | some p =>
    simp only [switch_leave, switch_out, save_vgic, save_pauth, save_sve, save_fp,
      State.onArch_request_yield, cacheLrCount, State.elapse, State.onMachine_vcpu]

theorem switch_leave_vttbr (q : VcpuPtr) :
    ((switch_leave src s).vcpu q).arch.vttbr_el2 = (s.vcpu q).arch.vttbr_el2 := by
  by_cases h : src = some q
  · subst h
    simp only [switch_leave, switch_out_arch, State.onMachine_vcpu]
  · rw [switch_leave_vcpu_of_ne s h]

@[simp] theorem world_switch_sched : (world_switch src target s).sched = s.sched := by
  rw [world_switch_eq, switch_in_sched, switch_leave_sched]

@[simp] theorem world_switch_current_trapframe :
    (world_switch src target s).current_trapframe = some target := by
  rw [world_switch_eq, switch_in_current_trapframe]

theorem world_switch_guest_el1_vectors :
    (world_switch src target s).guest_el1_vectors = s.guest_el1_vectors := by
  rw [world_switch_eq, switch_in_guest_el1_vectors, switch_leave_guest_el1_vectors]

@[simp] theorem world_switch_clock : (world_switch src target s).m.clock = s.m.clock := by
  rw [world_switch_eq, switch_in_clock, switch_leave_clock]

theorem world_switch_instant :
    (world_switch src target s).m.instant = s.m.instant + (if src.isSome then 1 else 0) + 1 := by
  rw [world_switch_eq, switch_in_instant, switch_leave_instant]

/-- The cache of the list-register count is right after every switch. -/
theorem world_switch_vgic_lr_cached :
    (world_switch src target s).vgic_lr_cached = vgic_lr_count s := by
  rw [world_switch_eq, switch_in_vgic_lr_cached, switch_leave_lr_count]

/-- The entered guest finds the registers of its frame. -/
theorem world_switch_x : (world_switch src target s).m.x = (s.vcpu target).arch.tf.regs := by
  rw [world_switch_eq, switch_in_m, vcpu_switch_asm_x, switch_leave_tf]

theorem world_switch_entryOffset :
    entryOffset target (switch_leave src s) =
      ((switch_leave src s).vcpu target).arch.cntvct_el0 - (world_switch src target s).m.cntpct := by
  have h : (world_switch src target s).m.cntpct = (switch_leave src s).m.elapse.cntpct := by
    simp only [Machine.cntpct, Machine.elapse_clock, Machine.elapse_instant, world_switch_eq,
      switch_in_clock, switch_in_instant]
  rw [h, entryOffset]

/-- A vCPU that is neither left nor entered is not touched. -/
theorem world_switch_vcpu_of_ne {src : Option VcpuPtr} {target q : VcpuPtr} (ht : q ≠ target) :
    (world_switch src target s).vcpu q = (switch_leave src s).vcpu q := by
  rw [world_switch_eq, switch_in_vcpu, State.onArch_vcpu_of_ne _ _ ht]

theorem world_switch_arch_target :
    ((world_switch src target s).vcpu target).arch = { ((switch_leave src s).vcpu target).arch with
      cntvoff_el2 := (world_switch src target s).m.sys .CNTVOFF_EL2 } := by
  have hoff : (world_switch src target s).m.sys .CNTVOFF_EL2 =
      entryOffset target (switch_leave src s) := by
    rw [world_switch_eq, switch_in_m, vcpu_switch_asm_sys]
    simp only [Machine.msr_sys, switch_in_prepare_sys, reduceCtorEq, if_false]
  rw [hoff, world_switch_eq, switch_in_vcpu, State.onArch_arch_self]

/-- Every system register that the entered guest finds, when it was not the one left. -/
theorem world_switch_sys {src : Option VcpuPtr} {target : VcpuPtr} (h : src ≠ some target)
    (r : SysReg) :
    (world_switch src target s).m.sys r = match r with
      | .SP_EL1 => (s.vcpu target).arch.tf.sp_el1
      | .ELR_EL2 => (s.vcpu target).arch.tf.elr_el1
      | .SPSR_EL2 => (s.vcpu target).arch.tf.spsr_el1
      | .TTBR0_EL1 => (s.vcpu target).arch.tf.ttbr0_el1
      | .TTBR1_EL1 => (s.vcpu target).arch.tf.ttbr1_el1
      | .TCR_EL1 => (s.vcpu target).arch.tf.tcr_el1
      | .SCTLR_EL1 => (s.vcpu target).arch.tf.sctlr_el1
      | .TPIDR_EL1 => (s.vcpu target).arch.tf.tpidr_el1
      | .CNTKCTL_EL1 => (s.vcpu target).arch.tf.cntkctl_el1
      | .CNTP_CVAL_EL0 => (s.vcpu target).arch.tf.cntp_cval_el0 -
          ((s.vcpu target).arch.cntvct_el0 - (world_switch src target s).m.cntpct)
      | .CNTP_CTL_EL0 => (s.vcpu target).arch.tf.cntp_ctl_el0 &&& 0x3
      | .CNTV_CVAL_EL0 => (s.vcpu target).arch.tf.cntv_cval_el0
      | .CNTV_CTL_EL0 => (s.vcpu target).arch.tf.cntv_ctl_el0 &&& 0x3
      | .VTTBR_EL2 => (s.vcpu target).arch.vttbr_el2
      | .CNTVOFF_EL2 => (s.vcpu target).arch.cntvct_el0 - (world_switch src target s).m.cntpct
      | .VBAR_EL1 => s.guest_el1_vectors
      | .ICH_LR n => if vgic_lr_count s > n.val then (s.vcpu target).arch.vgic.lrs n
          else s.m.sys (.ICH_LR n)
      | .ICH_VMCR => (s.vcpu target).arch.vgic.vmcr.setWidth 64
      | .ICH_AP0R0 => (s.vcpu target).arch.vgic.apr.setWidth 64
      | .FPCR => if (s.vcpu target).arch.fp.used = 0 then s.m.sys .FPCR
          else (s.vcpu target).arch.fp.fpcr.setWidth 64
      | .FPSR => if (s.vcpu target).arch.fp.used = 0 then s.m.sys .FPSR
          else (s.vcpu target).arch.fp.fpsr.setWidth 64
      | r => s.m.sys r := by
  have hv := switch_leave_vcpu_of_ne s h
  have ho := world_switch_entryOffset s target src
  rw [hv] at ho
  rw [← ho, world_switch_eq, switch_in_m, vcpu_switch_asm_sys, hv]
  cases r <;>
    simp only [Machine.msr_sys, switch_in_prepare_sys, reduceCtorEq, if_false, if_true, hv,
      switch_leave_lr_count, switch_leave_sys, switch_leave_guest_el1_vectors]

theorem world_switch_q {src : Option VcpuPtr} {target : VcpuPtr} (h : src ≠ some target) :
    (world_switch src target s).m.q = if (s.vcpu target).arch.fp.used = 0 then s.m.q
      else (s.vcpu target).arch.fp.vregs := by
  rw [world_switch_eq, switch_in_m, vcpu_switch_asm_q, Machine.msr_q, switch_in_prepare_q,
    switch_leave_vcpu_of_ne s h, switch_leave_q]

/-! ## What a switch leaves alone in every vCPU -/

theorem world_switch_tf (q : VcpuPtr) :
    ((world_switch src target s).vcpu q).arch.tf = (s.vcpu q).arch.tf := by
  by_cases h : q = target
  · subst h; rw [world_switch_arch_target, switch_leave_tf]
  · rw [world_switch_vcpu_of_ne s h, switch_leave_tf]

theorem world_switch_vttbr (q : VcpuPtr) :
    ((world_switch src target s).vcpu q).arch.vttbr_el2 = (s.vcpu q).arch.vttbr_el2 := by
  by_cases h : q = target
  · subst h; rw [world_switch_arch_target, switch_leave_vttbr]
  · rw [world_switch_vcpu_of_ne s h, switch_leave_vttbr]

theorem world_switch_request_yield (q : VcpuPtr) :
    ((world_switch src target s).vcpu q).request_yield = (s.vcpu q).request_yield := by
  rw [world_switch_eq, switch_in_vcpu, State.onArch_request_yield, switch_leave_request_yield]

/-- Only the vCPU that is left takes a new counter snapshot. -/
theorem world_switch_cntvct (q : VcpuPtr) :
    ((world_switch src target s).vcpu q).arch.cntvct_el0 =
      if src = some q then s.m.elapse.cntvct else (s.vcpu q).arch.cntvct_el0 := by
  have hl : ((switch_leave src s).vcpu q).arch.cntvct_el0 =
      if src = some q then s.m.elapse.cntvct else (s.vcpu q).arch.cntvct_el0 := by
    by_cases h : src = some q
    · subst h
      simp only [switch_leave, switch_out_arch, if_true]
      rfl
    · rw [switch_leave_vcpu_of_ne s h, if_neg h]
  by_cases h : q = target
  · subst h; rw [world_switch_arch_target, hl]
  · rw [world_switch_vcpu_of_ne s h, hl]

/-- A vCPU that is not the one left keeps everything but its offset. -/
theorem world_switch_arch_of_src_ne {src : Option VcpuPtr} {target q : VcpuPtr} (h : src ≠ some q) :
    ((world_switch src target s).vcpu q).arch =
      if q = target then { (s.vcpu q).arch with
        cntvoff_el2 := (world_switch src target s).m.sys .CNTVOFF_EL2 }
      else (s.vcpu q).arch := by
  by_cases hq : q = target
  · subst hq
    rw [if_pos rfl, world_switch_arch_target, switch_leave_vcpu_of_ne s h]
  · rw [if_neg hq, world_switch_vcpu_of_ne s hq, switch_leave_vcpu_of_ne s h]

/-- The copies that the switch makes for the vCPU that is left. -/
theorem world_switch_arch_src {p target : VcpuPtr} (h : p ≠ target) :
    ((world_switch (some p) target s).vcpu p).arch = { (s.vcpu p).arch with
      cntvct_el0 := s.m.elapse.cntvct
      fp := { used := 1
              fpcr := (s.m.sys .FPCR).setWidth 32
              fpsr := (s.m.sys .FPSR).setWidth 32
              vregs := s.m.q }
      sve_used := 0
      pauth_used := 0
      vgic := { lrs := fun n => if vgic_lr_count s > n.val then s.m.sys (.ICH_LR n)
                  else (s.vcpu p).arch.vgic.lrs n
                vmcr := (s.m.sys .ICH_VMCR).setWidth 32
                apr := (s.m.sys .ICH_AP0R0).setWidth 32 } } := by
  have hc : vgic_lr_count (s.onMachine fun m => { m with irqMasked := true }) = vgic_lr_count s := rfl
  rw [world_switch_vcpu_of_ne s h, switch_leave, switch_out_arch, hc]
  rfl

end Schism
