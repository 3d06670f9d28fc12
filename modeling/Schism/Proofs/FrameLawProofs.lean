import Schism.Proofs.ContextProofs
import Schism.Proofs.EsrProofs

/-!
# What an emulated timer access leaves alone

Every access moves the resume address and touches one timer; a read changes one register at most, since
the fields that it refreshes already hold the hardware's values at every exit (`timer_frame_law`). The
stack pointer lies behind `regs[30]`, and no access with `Rt = 31` reaches it.
-/

namespace Schism

/-! ## The law -/

/-- The registers of the physical timer. -/
def TimerReg.cntp : TimerReg → Bool
  | .CNTP_TVAL_EL0 | .CNTP_CTL_EL0 | .CNTP_CVAL_EL0 => true
  | _ => false

/-- The registers of the virtual timer. -/
def TimerReg.cntv : TimerReg → Bool
  | .CNTV_TVAL_EL0 | .CNTV_CTL_EL0 | .CNTV_CVAL_EL0 => true
  | _ => false

/-- The frame and the hardware hold the same of the physical timer. -/
structure SameCntp (p : VcpuPtr) (s s' : State) : Prop where
  ctl : (s'.vcpu p).arch.tf.cntp_ctl_el0 = (s.vcpu p).arch.tf.cntp_ctl_el0
  cval : (s'.vcpu p).arch.tf.cntp_cval_el0 = (s.vcpu p).arch.tf.cntp_cval_el0
  sys_ctl : s'.m.sys .CNTP_CTL_EL0 = s.m.sys .CNTP_CTL_EL0
  sys_cval : s'.m.sys .CNTP_CVAL_EL0 = s.m.sys .CNTP_CVAL_EL0

/-- The frame and the hardware hold the same of the virtual timer. -/
structure SameCntv (p : VcpuPtr) (s s' : State) : Prop where
  ctl : (s'.vcpu p).arch.tf.cntv_ctl_el0 = (s.vcpu p).arch.tf.cntv_ctl_el0
  cval : (s'.vcpu p).arch.tf.cntv_cval_el0 = (s.vcpu p).arch.tf.cntv_cval_el0
  sys_ctl : s'.m.sys .CNTV_CTL_EL0 = s.m.sys .CNTV_CTL_EL0
  sys_cval : s'.m.sys .CNTV_CVAL_EL0 = s.m.sys .CNTV_CVAL_EL0

/-- The compare values and the enable and mask bits of the frame are the same, and every register but the
return address. -/
structure ReadKept (p : VcpuPtr) (s s' : State) : Prop where
  cntp_cval : (s'.vcpu p).arch.tf.cntp_cval_el0 = (s.vcpu p).arch.tf.cntp_cval_el0
  cntp_ctl : (s'.vcpu p).arch.tf.cntp_ctl_el0 &&& 0x3 = (s.vcpu p).arch.tf.cntp_ctl_el0 &&& 0x3
  cntv_cval : (s'.vcpu p).arch.tf.cntv_cval_el0 = (s.vcpu p).arch.tf.cntv_cval_el0
  cntv_ctl : (s'.vcpu p).arch.tf.cntv_ctl_el0 &&& 0x3 = (s.vcpu p).arch.tf.cntv_ctl_el0 &&& 0x3
  sys : ∀ r : SysReg, r ≠ .ELR_EL2 → s'.m.sys r = s.m.sys r

/-- The effect of emulating an access by `p` whose instruction is at `elr`. -/
structure TimerLaw (p : VcpuPtr) (elr : U64) (reg : TimerReg) (is_read : Bool) (rt : U32)
    (s s' : State) : Prop where
  resume : (s'.vcpu p).arch.tf.elr_el1 = elr + 4 ∧ s'.m.sys .ELR_EL2 = elr + 4
  regs : ∀ i : Fin 31, ¬ (is_read = true ∧ rt.toNat = i.val) →
    (s'.vcpu p).arch.tf.regs i = (s.vcpu p).arch.tf.regs i
  sp_el1 : (s'.vcpu p).arch.tf.sp_el1 = (s.vcpu p).arch.tf.sp_el1
  read : is_read = true → ReadKept p s s'
  write_cntp : is_read = false → reg.cntp = true → SameCntv p s s'
  write_cntv : is_read = false → reg.cntv = true → SameCntp p s s'
  others : ∀ q, q ≠ p → s'.vcpu q = s.vcpu q

/-- Another value in the slot behind `regs[30]`. -/
def State.setSp (s : State) (p : VcpuPtr) (v : U64) : State := s.onTf p fun tf => { tf with sp_el1 := v }

/-! ## The frame after an access -/

/-- `if (rt < 31) tf.regs[rt] = v`. -/
def Trapframe.setReg (tf : Trapframe) (rt : U32) (v : U64) : Trapframe :=
  if h : rt.toNat < 31 then { tf with regs := Function.update tf.regs ⟨rt.toNat, h⟩ v } else tf

section Frame

variable {s : State} {p : VcpuPtr} {rt : U32}

theorem setGpr_tf (v : U64) :
    ((s.setGpr p rt v).vcpu p).arch.tf = (s.vcpu p).arch.tf.setReg rt v := by
  unfold State.setGpr Trapframe.setReg
  split
  · rw [onTf_tf]
  · rfl

variable (tf : Trapframe) (v : U64)

theorem setReg_regs_of_ne {i : Fin 31} (h : rt.toNat ≠ i.val) : (tf.setReg rt v).regs i = tf.regs i := by
  unfold Trapframe.setReg
  split
  · refine Function.update_of_ne ?_ _ _
    intro hi
    exact h (congrArg Fin.val hi).symm
  · rfl

@[simp] theorem setReg_sp_el1 : (tf.setReg rt v).sp_el1 = tf.sp_el1 := by
  unfold Trapframe.setReg
  split <;> rfl

@[simp] theorem setReg_cntp_ctl : (tf.setReg rt v).cntp_ctl_el0 = tf.cntp_ctl_el0 := by
  unfold Trapframe.setReg
  split <;> rfl

@[simp] theorem setReg_cntp_cval : (tf.setReg rt v).cntp_cval_el0 = tf.cntp_cval_el0 := by
  unfold Trapframe.setReg
  split <;> rfl

@[simp] theorem setReg_cntv_ctl : (tf.setReg rt v).cntv_ctl_el0 = tf.cntv_ctl_el0 := by
  unfold Trapframe.setReg
  split <;> rfl

@[simp] theorem setReg_cntv_cval : (tf.setReg rt v).cntv_cval_el0 = tf.cntv_cval_el0 := by
  unfold Trapframe.setReg
  split <;> rfl

end Frame

section Advance

variable {s : State} {p : VcpuPtr}

/-- Moving the resume address touches nothing else. -/
theorem advance_tf (elr : U64) : ((advance_guest_elr p elr s).vcpu p).arch.tf =
    { (s.vcpu p).arch.tf with elr_el1 := elr + 4 } := by
  rw [advance_guest_elr, onTf_tf]
  rfl

theorem advance_sys (elr : U64) {r : SysReg} (hr : r ≠ .ELR_EL2) :
    (advance_guest_elr p elr s).m.sys r = s.m.sys r := Machine.msr_sys_of_ne _ _ hr

end Advance

/-! ## Reads -/

section Read

variable {s s' : State} {p : VcpuPtr} {rt : U32}

/-- What a read into register `rt` leaves alone. -/
structure ReadLaw (p : VcpuPtr) (rt : U32) (s s' : State) : Prop extends ReadKept p s s' where
  regs : ∀ i : Fin 31, rt.toNat ≠ i.val → (s'.vcpu p).arch.tf.regs i = (s.vcpu p).arch.tf.regs i
  sp_el1 : (s'.vcpu p).arch.tf.sp_el1 = (s.vcpu p).arch.tf.sp_el1

theorem ReadLaw.refl (p : VcpuPtr) (rt : U32) (s : State) : ReadLaw p rt s s :=
  ⟨⟨rfl, rfl, rfl, rfl, fun _ _ => rfl⟩, fun _ _ => rfl, rfl⟩

theorem ReadLaw.setGpr (h : ReadLaw p rt s s') (v : U64) : ReadLaw p rt s (s'.setGpr p rt v) where
  cntp_cval := by rw [setGpr_tf, setReg_cntp_cval, h.cntp_cval]
  cntp_ctl := by rw [setGpr_tf, setReg_cntp_ctl, h.cntp_ctl]
  cntv_cval := by rw [setGpr_tf, setReg_cntv_cval, h.cntv_cval]
  cntv_ctl := by rw [setGpr_tf, setReg_cntv_ctl, h.cntv_ctl]
  sys r hr := by rw [setGpr_m, h.sys r hr]
  regs i hi := by rw [setGpr_tf, setReg_regs_of_ne _ _ hi, h.regs i hi]
  sp_el1 := by rw [setGpr_tf, setReg_sp_el1, h.sp_el1]

/-- Refreshing a field that already holds the hardware's value keeps the law. -/
theorem ReadLaw.onTf {f : Trapframe → Trapframe} (hcval : (f (s.vcpu p).arch.tf).cntp_cval_el0 =
      (s.vcpu p).arch.tf.cntp_cval_el0)
    (hctl : (f (s.vcpu p).arch.tf).cntp_ctl_el0 &&& 0x3 = (s.vcpu p).arch.tf.cntp_ctl_el0 &&& 0x3)
    (hvcval : (f (s.vcpu p).arch.tf).cntv_cval_el0 = (s.vcpu p).arch.tf.cntv_cval_el0)
    (hvctl : (f (s.vcpu p).arch.tf).cntv_ctl_el0 &&& 0x3 = (s.vcpu p).arch.tf.cntv_ctl_el0 &&& 0x3)
    (hregs : (f (s.vcpu p).arch.tf).regs = (s.vcpu p).arch.tf.regs)
    (hsp : (f (s.vcpu p).arch.tf).sp_el1 = (s.vcpu p).arch.tf.sp_el1) :
    ReadLaw p rt s (s.onTf p f) where
  cntp_cval := by rw [onTf_tf, hcval]
  cntp_ctl := by rw [onTf_tf, hctl]
  cntv_cval := by rw [onTf_tf, hvcval]
  cntv_ctl := by rw [onTf_tf, hvctl]
  sys _ _ := rfl
  regs i _ := by rw [onTf_tf, hregs]
  sp_el1 := by rw [onTf_tf, hsp]

theorem ReadLaw.of_elapse (h : ReadLaw p rt s.elapse s') : ReadLaw p rt s s' :=
  ⟨⟨h.cntp_cval, h.cntp_ctl, h.cntv_cval, h.cntv_ctl, h.sys⟩, h.regs, h.sp_el1⟩

theorem ReadLaw.advance (h : ReadLaw p rt s s') (elr : U64) :
    ReadLaw p rt s (advance_guest_elr p elr s') where
  cntp_cval := by rw [advance_tf, ← h.cntp_cval]
  cntp_ctl := by rw [advance_tf, ← h.cntp_ctl]
  cntv_cval := by rw [advance_tf, ← h.cntv_cval]
  cntv_ctl := by rw [advance_tf, ← h.cntv_ctl]
  sys r hr := by rw [advance_sys _ hr, h.sys r hr]
  regs i hi := by rw [advance_tf, ← h.regs i hi]
  sp_el1 := by rw [advance_tf, ← h.sp_el1]

/-- A read keeps the law because frame and hardware agree on what it refreshes. -/
theorem emulate_read_law (hs : TimerSync s.m (s.vcpu p).arch) (reg : TimerReg) (virt_now : U64) :
    ReadLaw p rt s (emulate_timer p reg true rt virt_now s) := by
  cases reg with
  | CNTPCT_EL0 | CNTVCT_EL0 | CNTP_TVAL_EL0 => exact (ReadLaw.refl p rt s).setGpr _
  | CNTP_CVAL_EL0 => exact (ReadLaw.onTf hs.cntp_cval.symm rfl rfl rfl rfl rfl).setGpr _
  | CNTP_CTL_EL0 =>
    have hctl := (Machine.timerCtl_and_three (s.m.sys .CNTP_CTL_EL0) (s.m.sys .CNTP_CVAL_EL0)
      s.elapse.m.cntpct).trans hs.cntp_ctl.symm
    refine ReadLaw.setGpr (ReadLaw.of_elapse ?_) _
    exact ReadLaw.onTf (f := fun tf => { tf with cntp_ctl_el0 := s.elapse.m.mrs .CNTP_CTL_EL0 })
      rfl hctl rfl rfl rfl rfl
  | CNTV_CVAL_EL0 | CNTV_TVAL_EL0 =>
    exact (ReadLaw.onTf rfl rfl hs.cntv_cval.symm rfl rfl rfl).setGpr _
  | CNTV_CTL_EL0 =>
    have hctl := (Machine.timerCtl_and_three (s.m.sys .CNTV_CTL_EL0) (s.m.sys .CNTV_CVAL_EL0)
      s.elapse.m.cntvct).trans hs.cntv_ctl.symm
    refine ReadLaw.setGpr (ReadLaw.of_elapse ?_) _
    exact ReadLaw.onTf (f := fun tf => { tf with cntv_ctl_el0 := s.elapse.m.mrs .CNTV_CTL_EL0 })
      rfl rfl rfl hctl rfl rfl

end Read

/-! ## Writes -/

section Write

variable {s s' : State} {p : VcpuPtr}

/-- A write to a field of the frame and to a register that are not the virtual timer's. -/
theorem SameCntv.write {f : Trapframe → Trapframe} {r : SysReg} (v : U64)
    (hctl : (f (s.vcpu p).arch.tf).cntv_ctl_el0 = (s.vcpu p).arch.tf.cntv_ctl_el0)
    (hcval : (f (s.vcpu p).arch.tf).cntv_cval_el0 = (s.vcpu p).arch.tf.cntv_cval_el0)
    (hctl' : .CNTV_CTL_EL0 ≠ r) (hcval' : .CNTV_CVAL_EL0 ≠ r) : SameCntv p s ((s.onTf p f).msr r v) where
  ctl := by rw [State.msr, State.onMachine_vcpu, onTf_tf, hctl]
  cval := by rw [State.msr, State.onMachine_vcpu, onTf_tf, hcval]
  sys_ctl := Machine.msr_sys_of_ne _ _ hctl'
  sys_cval := Machine.msr_sys_of_ne _ _ hcval'

theorem SameCntp.write {f : Trapframe → Trapframe} {r : SysReg} (v : U64)
    (hctl : (f (s.vcpu p).arch.tf).cntp_ctl_el0 = (s.vcpu p).arch.tf.cntp_ctl_el0)
    (hcval : (f (s.vcpu p).arch.tf).cntp_cval_el0 = (s.vcpu p).arch.tf.cntp_cval_el0)
    (hctl' : .CNTP_CTL_EL0 ≠ r) (hcval' : .CNTP_CVAL_EL0 ≠ r) : SameCntp p s ((s.onTf p f).msr r v) where
  ctl := by rw [State.msr, State.onMachine_vcpu, onTf_tf, hctl]
  cval := by rw [State.msr, State.onMachine_vcpu, onTf_tf, hcval]
  sys_ctl := Machine.msr_sys_of_ne _ _ hctl'
  sys_cval := Machine.msr_sys_of_ne _ _ hcval'

theorem SameCntv.advance (h : SameCntv p s s') (elr : U64) :
    SameCntv p s (advance_guest_elr p elr s') where
  ctl := by rw [advance_tf, ← h.ctl]
  cval := by rw [advance_tf, ← h.cval]
  sys_ctl := (advance_sys elr (by decide)).trans h.sys_ctl
  sys_cval := (advance_sys elr (by decide)).trans h.sys_cval

theorem SameCntp.advance (h : SameCntp p s s') (elr : U64) :
    SameCntp p s (advance_guest_elr p elr s') where
  ctl := by rw [advance_tf, ← h.ctl]
  cval := by rw [advance_tf, ← h.cval]
  sys_ctl := (advance_sys elr (by decide)).trans h.sys_ctl
  sys_cval := (advance_sys elr (by decide)).trans h.sys_cval

/-- What a write to `reg` leaves alone. -/
structure WriteLaw (p : VcpuPtr) (reg : TimerReg) (s s' : State) : Prop where
  regs : (s'.vcpu p).arch.tf.regs = (s.vcpu p).arch.tf.regs
  sp_el1 : (s'.vcpu p).arch.tf.sp_el1 = (s.vcpu p).arch.tf.sp_el1
  cntp : reg.cntp = true → SameCntv p s s'
  cntv : reg.cntv = true → SameCntp p s s'

/-- A write to one field of the frame, which is no general register, and to one system register. -/
theorem WriteLaw.write {reg : TimerReg} {f : Trapframe → Trapframe} {r : SysReg} (v : U64)
    (hregs : (f (s.vcpu p).arch.tf).regs = (s.vcpu p).arch.tf.regs)
    (hsp : (f (s.vcpu p).arch.tf).sp_el1 = (s.vcpu p).arch.tf.sp_el1)
    (hcntp : reg.cntp = true → SameCntv p s ((s.onTf p f).msr r v))
    (hcntv : reg.cntv = true → SameCntp p s ((s.onTf p f).msr r v)) :
    WriteLaw p reg s ((s.onTf p f).msr r v) where
  regs := by rw [State.msr, State.onMachine_vcpu, onTf_tf, hregs]
  sp_el1 := by rw [State.msr, State.onMachine_vcpu, onTf_tf, hsp]
  cntp := hcntp
  cntv := hcntv

theorem WriteLaw.of_elapse {reg : TimerReg} (h : WriteLaw p reg s.elapse s') : WriteLaw p reg s s' where
  regs := h.regs
  sp_el1 := h.sp_el1
  cntp hr := ⟨(h.cntp hr).ctl, (h.cntp hr).cval, (h.cntp hr).sys_ctl, (h.cntp hr).sys_cval⟩
  cntv hr := ⟨(h.cntv hr).ctl, (h.cntv hr).cval, (h.cntv hr).sys_ctl, (h.cntv hr).sys_cval⟩

theorem WriteLaw.advance {reg : TimerReg} (h : WriteLaw p reg s s') (elr : U64) :
    WriteLaw p reg s (advance_guest_elr p elr s') where
  regs := by rw [advance_tf, ← h.regs]
  sp_el1 := by rw [advance_tf, ← h.sp_el1]
  cntp hr := (h.cntp hr).advance elr
  cntv hr := (h.cntv hr).advance elr

theorem emulate_write_law (reg : TimerReg) (rt : U32) (virt_now : U64) :
    WriteLaw p reg s (emulate_timer p reg false rt virt_now s) := by
  cases reg with
  | CNTPCT_EL0 | CNTVCT_EL0 =>
    exact ⟨rfl, rfl, fun _ => ⟨rfl, rfl, rfl, rfl⟩, fun _ => ⟨rfl, rfl, rfl, rfl⟩⟩
  | CNTP_CVAL_EL0 | CNTP_CTL_EL0 | CNTP_TVAL_EL0 =>
    exact WriteLaw.write _ rfl rfl (fun _ => SameCntv.write _ rfl rfl (by decide) (by decide))
      fun h => absurd h (by decide)
  | CNTV_CVAL_EL0 | CNTV_CTL_EL0 | CNTV_TVAL_EL0 =>
    exact WriteLaw.write _ rfl rfl (fun h => absurd h (by decide))
      fun _ => SameCntp.write _ rfl rfl (by decide) (by decide)

end Write

/-! ## All accesses -/

section Access

variable {s : State} {p : VcpuPtr}

/-- The state after `handle_timer_sysreg` has emulated the given access. -/
def State.timerServed (p : VcpuPtr) (elr : U64) (reg : TimerReg) (is_read : Bool) (rt : U32)
    (s : State) : State :=
  advance_guest_elr p elr (emulate_timer p reg is_read rt s.elapse.m.cntvct s.elapse)

/-- Every access keeps the law where frame and hardware agree, as they do at an exit. -/
theorem timerServed_law (hs : TimerSync s.m (s.vcpu p).arch) (elr : U64) (reg : TimerReg)
    (is_read : Bool) (rt : U32) :
    TimerLaw p elr reg is_read rt s (s.timerServed p elr reg is_read rt) := by
  have hs' : TimerSync s.elapse.m (s.elapse.vcpu p).arch := ⟨hs.1, hs.2, hs.3, hs.4⟩
  have hothers : ∀ q, q ≠ p → (s.timerServed p elr reg is_read rt).vcpu q = s.vcpu q :=
    ((HandlerFrame.elapse.trans (HandlerFrame.emulate_timer reg is_read rt _)).trans
      (HandlerFrame.advance_guest_elr elr)).others
  have hresume : ((s.timerServed p elr reg is_read rt).vcpu p).arch.tf.elr_el1 = elr + 4 ∧
      (s.timerServed p elr reg is_read rt).m.sys .ELR_EL2 = elr + 4 := by
    rw [State.timerServed, advance_tf]
    exact ⟨rfl, Machine.msr_sys_self _ _ _⟩
  cases is_read with
  | true =>
    have hlaw : ReadLaw p rt s (s.timerServed p elr reg true rt) :=
      (ReadLaw.of_elapse (emulate_read_law hs' reg _)).advance elr
    exact
      { resume := hresume
        regs := fun i hi => hlaw.regs i fun h => hi ⟨rfl, h⟩
        sp_el1 := hlaw.sp_el1
        read := fun _ => hlaw.toReadKept
        write_cntp := fun h => absurd h (by decide)
        write_cntv := fun h => absurd h (by decide)
        others := hothers }
  | false =>
    have hlaw : WriteLaw p reg s (s.timerServed p elr reg false rt) :=
      (WriteLaw.of_elapse (emulate_write_law reg rt _)).advance elr
    exact
      { resume := hresume
        regs := fun i _ => congrFun hlaw.regs i
        sp_el1 := hlaw.sp_el1
        read := fun h => absurd h (by decide)
        write_cntp := fun _ hr => hlaw.cntp hr
        write_cntv := fun _ hr => hlaw.cntv hr
        others := hothers }

/-! ## The slot behind `regs[30]` -/

theorem onTf_onTf (f g : Trapframe → Trapframe) : (s.onTf p f).onTf p g = s.onTf p (g ∘ f) := by
  simp only [State.onTf, State.onArch, Function.update_self, Function.update_idem, Function.comp_apply]

theorem setSp_tf (v : U64) :
    ((s.setSp p v).vcpu p).arch.tf = { (s.vcpu p).arch.tf with sp_el1 := v } := onTf_tf _

/-- A write to another field of the frame commutes with a change of the slot. -/
theorem setSp_onTf {f : Trapframe → Trapframe} {v : U64}
    (hf : ∀ tf : Trapframe, f { tf with sp_el1 := v } = { f tf with sp_el1 := v }) :
    (s.setSp p v).onTf p f = (s.onTf p f).setSp p v := by
  rw [State.setSp, State.setSp, onTf_onTf, onTf_onTf]
  congr 1
  funext tf
  exact hf tf

theorem setSp_gpr (v : U64) (rt : U32) : (s.setSp p v).gpr p rt = s.gpr p rt := by
  unfold State.gpr
  rw [setSp_tf]

theorem setSp_setGpr (v w : U64) (rt : U32) :
    (s.setSp p v).setGpr p rt w = (s.setGpr p rt w).setSp p v := by
  unfold State.setGpr
  split
  · exact setSp_onTf fun _ => rfl
  · rfl

/-- No access reads or writes the slot. -/
theorem emulate_timer_setSp (reg : TimerReg) (is_read : Bool) (rt : U32) (virt_now v : U64) :
    emulate_timer p reg is_read rt virt_now (s.setSp p v) =
      (emulate_timer p reg is_read rt virt_now s).setSp p v := by
  have hoff : ((s.setSp p v).vcpu p).arch.cntvoff_el2 = (s.vcpu p).arch.cntvoff_el2 := by
    simp only [State.setSp, State.onTf, State.onArch_arch_self]
  have hcval : ((s.setSp p v).vcpu p).arch.tf.cntp_cval_el0 = (s.vcpu p).arch.tf.cntp_cval_el0 := by
    rw [setSp_tf]
  have refresh : ∀ (t : State) (f : Trapframe → Trapframe) (w : U64),
      (∀ tf : Trapframe, f { tf with sp_el1 := v } = { f tf with sp_el1 := v }) →
      ((t.setSp p v).onTf p f).setGpr p rt w = ((t.onTf p f).setGpr p rt w).setSp p v := by
    intro t f w hf
    rw [setSp_onTf hf, setSp_setGpr]
  have write : ∀ (f : Trapframe → Trapframe) (r : SysReg) (w : U64),
      (∀ tf : Trapframe, f { tf with sp_el1 := v } = { f tf with sp_el1 := v }) →
      ((s.setSp p v).onTf p f).msr r w = ((s.onTf p f).msr r w).setSp p v := by
    intro f r w hf
    rw [setSp_onTf hf]
    rfl
  cases is_read with
  | true =>
    cases reg with
    | CNTPCT_EL0 | CNTVCT_EL0 => exact setSp_setGpr _ _ _
    | CNTP_TVAL_EL0 =>
      simp only [emulate_timer, hcval]
      exact setSp_setGpr _ _ _
    | CNTP_CVAL_EL0 =>
      simp only [emulate_timer, hoff]
      exact refresh _ _ _ fun _ => rfl
    | CNTP_CTL_EL0 | CNTV_CTL_EL0 => exact refresh s.elapse _ _ fun _ => rfl
    | CNTV_CVAL_EL0 | CNTV_TVAL_EL0 => exact refresh s _ _ fun _ => rfl
  | false =>
    cases reg with
    | CNTPCT_EL0 | CNTVCT_EL0 => rfl
    | CNTP_CVAL_EL0 | CNTP_TVAL_EL0 =>
      simp only [emulate_timer, hoff, setSp_gpr]
      exact write _ _ _ fun _ => rfl
    | CNTP_CTL_EL0 | CNTV_CVAL_EL0 | CNTV_CTL_EL0 | CNTV_TVAL_EL0 =>
      simp only [emulate_timer, setSp_gpr]
      exact write _ _ _ fun _ => rfl

theorem timerServed_setSp (elr : U64) (reg : TimerReg) (is_read : Bool) (rt : U32) (v : U64) :
    (s.setSp p v).timerServed p elr reg is_read rt = (s.timerServed p elr reg is_read rt).setSp p v := by
  have helapse : (s.setSp p v).elapse = s.elapse.setSp p v := rfl
  have hmsr : ∀ (t : State) (w : U64), (t.setSp p v).msr .ELR_EL2 w = (t.msr .ELR_EL2 w).setSp p v :=
    fun _ _ => rfl
  rw [State.timerServed, helapse, emulate_timer_setSp, advance_guest_elr, hmsr, setSp_onTf fun _ => rfl]
  rfl

end Access

/-! ## `handle_timer_sysreg` -/

section Result

variable {s s' : State} {p : VcpuPtr} (hp : s.sched.current = some p) {esr elr : U64}
include hp

theorem handle_timer_sysreg_result_of_none (h : timerCase (esr_sys64_sysreg esr) = none) :
    handle_timer_sysreg_result esr elr s = (false, s.elapse) := by
  simp only [handle_timer_sysreg_result, hp, h]

theorem handle_timer_sysreg_result_of_some {reg : TimerReg}
    (h : timerCase (esr_sys64_sysreg esr) = some reg) : handle_timer_sysreg_result esr elr s =
      (true, s.timerServed p elr reg (esr_sys64_is_read esr) (esr_sys64_rt esr)) := by
  simp only [handle_timer_sysreg_result, hp, h]
  rfl

/-- The result with another stack pointer is the result with another stack pointer. -/
theorem handle_timer_sysreg_result_setSp (v : U64) :
    handle_timer_sysreg_result esr elr (s.setSp p v) =
      ((handle_timer_sysreg_result esr elr s).1, (handle_timer_sysreg_result esr elr s).2.setSp p v) := by
  have hp' : (s.setSp p v).sched.current = some p := hp
  cases hreg : timerCase (esr_sys64_sysreg esr) with
  | none =>
    rw [handle_timer_sysreg_result_of_none hp hreg, handle_timer_sysreg_result_of_none hp' hreg]
    rfl
  | some reg =>
    rw [handle_timer_sysreg_result_of_some hp hreg, handle_timer_sysreg_result_of_some hp' hreg,
      timerServed_setSp]

end Result

/-- The frame law of the timer emulation, at every exit of every run, for every syndrome and return
address, whatever exception the guest has taken. A decoded access is a read (`SYS_REG_ENCODE` leaves no
syndrome for a write), so the law is proved for the emulation of all accesses as well. -/
theorem timer_frame_law {r : Running} (hr : Reachable r) (sl : Slice) (elr : U64) :
    (∀ esr s', handle_timer_sysreg_result esr elr (r.trapped sl) = (false, s') →
      s'.vcpu = (r.trapped sl).vcpu ∧ s'.m.sys = (r.trapped sl).m.sys) ∧
    (∀ esr s', handle_timer_sysreg_result esr elr (r.trapped sl) = (true, s') →
      ∃ reg, timerCase (esr_sys64_sysreg esr) = some reg ∧
        TimerLaw r.vcpu elr reg (esr_sys64_is_read esr) (esr_sys64_rt esr) (r.trapped sl) s') ∧
    (∀ esr v, handle_timer_sysreg_result esr elr ((r.trapped sl).setSp r.vcpu v) =
      ((handle_timer_sysreg_result esr elr (r.trapped sl)).1,
        (handle_timer_sysreg_result esr elr (r.trapped sl)).2.setSp r.vcpu v)) ∧
    (∀ reg is_read rt, TimerLaw r.vcpu elr reg is_read rt (r.trapped sl)
      ((r.trapped sl).timerServed r.vcpu elr reg is_read rt)) ∧
    ∀ reg is_read rt v, ((r.trapped sl).setSp r.vcpu v).timerServed r.vcpu elr reg is_read rt =
      ((r.trapped sl).timerServed r.vcpu elr reg is_read rt).setSp r.vcpu v := by
  have hi := reachable_inv hr
  have hcur := (trapped_coherent hi sl).current
  have hsync := trapped_sync hi sl
  refine ⟨?_, ?_, ?_, timerServed_law hsync elr, timerServed_setSp elr⟩
  · intro esr s' h
    cases hreg : timerCase (esr_sys64_sysreg esr) with
    | none =>
      cases (handle_timer_sysreg_result_of_none hcur hreg).symm.trans h
      exact ⟨rfl, rfl⟩
    | some reg => cases (handle_timer_sysreg_result_of_some hcur hreg).symm.trans h
  · intro esr s' h
    cases hreg : timerCase (esr_sys64_sysreg esr) with
    | none => cases (handle_timer_sysreg_result_of_none hcur hreg).symm.trans h
    | some reg =>
      cases (handle_timer_sysreg_result_of_some hcur hreg).symm.trans h
      exact ⟨reg, rfl, timerServed_law hsync elr reg _ _⟩
  · intro esr v
    exact handle_timer_sysreg_result_setSp hcur v

/-- The syndrome of a read of `CNTP_CVAL_EL0` into the zero register. -/
theorem timer_frame_law_cold : ∃ s',
    handle_timer_sysreg_result 0x6033e25f 0x1000 (coldEntry.trapped (coldSlice 0x6033e25f)) = (true, s') ∧
    (∀ i : Fin 31, (s'.vcpu 0).arch.tf.regs i =
      ((coldEntry.trapped (coldSlice 0x6033e25f)).vcpu 0).arch.tf.regs i) ∧
    (s'.vcpu 0).arch.tf.sp_el1 =
      ((coldEntry.trapped (coldSlice 0x6033e25f)).vcpu 0).arch.tf.sp_el1 := by
  obtain ⟨-, htrue, -⟩ := timer_frame_law coldEntry_reachable (coldSlice 0x6033e25f) 0x1000
  have hcur := (trapped_coherent (reachable_inv coldEntry_reachable) (coldSlice 0x6033e25f)).current
  have hcase : timerCase (esr_sys64_sysreg 0x6033e25f) = some .CNTP_CVAL_EL0 := by decide
  have hresult := @handle_timer_sysreg_result_of_some _ _ hcur _ 0x1000 _ hcase
  obtain ⟨reg, -, hlaw⟩ := htrue _ _ hresult
  refine ⟨_, hresult, fun i => hlaw.regs i ?_, hlaw.sp_el1⟩
  rintro ⟨-, hi⟩
  have hlt := i.isLt
  have hrt : (esr_sys64_rt 0x6033e25f).toNat = 31 := by decide
  omega

end Schism
