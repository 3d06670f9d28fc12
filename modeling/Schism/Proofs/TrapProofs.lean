import Schism.Trap

/-!
# What the exception handler can do

`el2_exception_common_cases` lists the four ways in which the handler returns. `HandlerFrame` is what
all of them leave alone: the scheduler, the latch, every vCPU but the current one, and all registers
that no handler writes. It is closed under composition, so it is proved once for each kind of write.
-/

namespace Schism

/-- The registers that some handler writes. -/
def SysReg.handlerWritten : SysReg → Bool
  | .ELR_EL2 | .CNTVOFF_EL2 | .CNTP_CTL_EL0 | .CNTP_CVAL_EL0 | .CNTV_CTL_EL0 | .CNTV_CVAL_EL0 => true
  | _ => false

/-- What a handler run on behalf of `p` leaves alone. -/
structure HandlerFrame (p : VcpuPtr) (s s' : State) : Prop where
  sched : s'.sched = s.sched
  latch : s'.current_trapframe = s.current_trapframe
  lr_cached : s'.vgic_lr_cached = s.vgic_lr_cached
  vectors : s'.guest_el1_vectors = s.guest_el1_vectors
  others : ∀ q, q ≠ p → s'.vcpu q = s.vcpu q
  vttbr : (s'.vcpu p).arch.vttbr_el2 = (s.vcpu p).arch.vttbr_el2
  fp : (s'.vcpu p).arch.fp = (s.vcpu p).arch.fp
  vgic : (s'.vcpu p).arch.vgic = (s.vcpu p).arch.vgic
  clock : s'.m.clock = s.m.clock
  q : s'.m.q = s.m.q
  sys : ∀ r : SysReg, r.handlerWritten = false → s'.m.sys r = s.m.sys r

namespace HandlerFrame

variable {p : VcpuPtr} {s s' s'' : State}

theorem refl (p : VcpuPtr) (s : State) : HandlerFrame p s s :=
  ⟨rfl, rfl, rfl, rfl, fun _ _ => rfl, rfl, rfl, rfl, rfl, rfl, fun _ _ => rfl⟩

theorem trans (h : HandlerFrame p s s') (h' : HandlerFrame p s' s'') : HandlerFrame p s s'' where
  sched := h'.sched.trans h.sched
  latch := h'.latch.trans h.latch
  lr_cached := h'.lr_cached.trans h.lr_cached
  vectors := h'.vectors.trans h.vectors
  others q hq := (h'.others q hq).trans (h.others q hq)
  vttbr := h'.vttbr.trans h.vttbr
  fp := h'.fp.trans h.fp
  vgic := h'.vgic.trans h.vgic
  clock := h'.clock.trans h.clock
  q := h'.q.trans h.q
  sys r hr := (h'.sys r hr).trans (h.sys r hr)

theorem print (out : List Out) : HandlerFrame p s (s.print out) :=
  ⟨rfl, rfl, rfl, rfl, fun _ _ => rfl, rfl, rfl, rfl, rfl, rfl, fun _ _ => rfl⟩

theorem elapse : HandlerFrame p s s.elapse :=
  ⟨rfl, rfl, rfl, rfl, fun _ _ => rfl, rfl, rfl, rfl, rfl, rfl, fun _ _ => rfl⟩

theorem msr {r : SysReg} (hr : r.handlerWritten = true) (v : U64) : HandlerFrame p s (s.msr r v) := by
  refine ⟨rfl, rfl, rfl, rfl, fun _ _ => rfl, rfl, rfl, rfl, rfl, rfl, ?_⟩
  intro r' hr'
  refine Machine.msr_sys_of_ne _ _ ?_
  intro h
  rw [h, hr] at hr'
  cases hr'

/-- A write through `p->arch` that spares the fields a handler must keep. -/
theorem onArch {f : VcpuArch → VcpuArch} (hv : ∀ a, (f a).vttbr_el2 = a.vttbr_el2)
    (hf : ∀ a, (f a).fp = a.fp) (hg : ∀ a, (f a).vgic = a.vgic) :
    HandlerFrame p s (s.onArch p f) := by
  refine ⟨rfl, rfl, rfl, rfl, fun q hq => State.onArch_vcpu_of_ne _ _ hq, ?_, ?_, ?_, rfl, rfl,
    fun _ _ => rfl⟩
  · rw [State.onArch_arch_self, hv]
  · rw [State.onArch_arch_self, hf]
  · rw [State.onArch_arch_self, hg]

theorem onTf (f : Trapframe → Trapframe) : HandlerFrame p s (s.onTf p f) :=
  onArch (fun _ => rfl) (fun _ => rfl) (fun _ => rfl)

theorem setGpr (rt : U32) (v : U64) : HandlerFrame p s (s.setGpr p rt v) := by
  unfold State.setGpr
  split
  · exact onTf _
  · exact refl p s

theorem setRequestYield (b : Bool) : HandlerFrame p s (s.setRequestYield p b) := by
  refine ⟨rfl, rfl, rfl, rfl, fun q hq => State.setRequestYield_vcpu_of_ne _ _ hq, ?_, ?_, ?_, rfl,
    rfl, fun _ _ => rfl⟩ <;> rw [State.setRequestYield_arch]

theorem advance_guest_elr (elr : U64) : HandlerFrame p s (advance_guest_elr p elr s) := by
  unfold Schism.advance_guest_elr
  exact (msr rfl _).trans (onTf _)

theorem emulate_timer (reg : TimerReg) (is_read : Bool) (rt : U32) (virt_now : U64) :
    HandlerFrame p s (emulate_timer p reg is_read rt virt_now s) := by
  cases reg <;> cases is_read
  case CNTPCT_EL0.false | CNTVCT_EL0.false => exact refl p s
  case CNTPCT_EL0.true | CNTVCT_EL0.true | CNTP_TVAL_EL0.true => exact setGpr _ _
  case CNTP_CTL_EL0.true | CNTV_CTL_EL0.true => exact elapse.trans ((onTf _).trans (setGpr _ _))
  case CNTP_CVAL_EL0.true | CNTV_CVAL_EL0.true | CNTV_TVAL_EL0.true =>
    exact (onTf _).trans (setGpr _ _)
  all_goals exact (onTf _).trans (msr rfl _)

theorem handle_wfx (hp : s.sched.current = some p) (elr : U64) :
    HandlerFrame p s (handle_wfx elr s) := by
  simp only [Schism.handle_wfx, State.msr, State.onMachine_sched, State.print_sched, hp]
  exact (print _).trans ((msr rfl _).trans ((onTf _).trans (setRequestYield _)))

end HandlerFrame

/-! ## The ways in which the handler returns -/

/-- The state after a recognised timer access. -/
def timerReturn (p : VcpuPtr) (reg : TimerReg) (esr elr : U64) (s : State) : State :=
  advance_guest_elr p elr
    (emulate_timer p reg (esr_sys64_is_read esr) (esr_sys64_rt esr) s.elapse.m.cntvct s.elapse)

/-- The state after a time override. -/
def overrideReturn (p : VcpuPtr) (s : State) : State :=
  let tf := (s.vcpu p).arch.tf
  let offset := tf.regs 0 - s.elapse.m.cntpct
  (((((((s.elapse.onArch p fun a =>
    { a with cntvct_el0 := tf.regs 0, cntvoff_el2 := offset }).msr .CNTVOFF_EL2 offset).msr
    .CNTP_CVAL_EL0 (tf.cntp_cval_el0 - offset)).msr .CNTP_CTL_EL0 tf.cntp_ctl_el0).msr
    .CNTV_CVAL_EL0 tf.cntv_cval_el0).msr .CNTV_CTL_EL0 tf.cntv_ctl_el0)).onTf p
    fun t => { t with regs := Function.update t.regs 0 (tf.regs 0) }

theorem handle_guest_time_override_eq {s : State} {p : VcpuPtr} (hp : s.sched.current = some p) :
    handle_guest_time_override s = .yes (overrideReturn p s) := by
  have htf : ∀ (d o : U64), ((((s.elapse.onArch p fun a =>
      { a with cntvct_el0 := d, cntvoff_el2 := o }).msr .CNTVOFF_EL2 o)).vcpu p).arch.tf =
      (s.vcpu p).arch.tf := by
    intro d o
    simp only [State.msr, State.onMachine_vcpu, State.onArch_arch_self, State.elapse]
  simp only [handle_guest_time_override, hp, htf]
  rfl

theorem handle_guest_task_report_yes {s s' : State} {p : VcpuPtr} (hp : s.sched.current = some p)
    (h : handle_guest_task_report s = .yes s') : ∃ out, s' = s.print out := by
  simp only [handle_guest_task_report, hp] at h
  split at h
  · cases h
    exact ⟨[], by simp [State.print]⟩
  · split at h
    · cases h
    · rename_i out _
      cases h
      exact ⟨out, rfl⟩

/-- The four ways in which the handler returns. -/
theorem el2_exception_common_cases {esr elr spsr far code : U64} {s s' : State} {p : VcpuPtr}
    (hp : s.sched.current = some p)
    (h : el2_exception_common esr elr spsr far code s = .returned s') :
    (esr_ec esr = 0x01 ∧ s' = handle_wfx elr s) ∨
    (esr_ec esr = 0x16 ∧ esr &&& 0xffff = 0x60 ∧ ∃ out, s' = s.print out) ∨
    (esr_ec esr = 0x16 ∧ esr &&& 0xffff = 0x61 ∧ s' = overrideReturn p s) ∨
    (esr_ec esr = 0x18 ∧ ∃ reg, timerCase (esr_sys64_sysreg esr) = some reg ∧
      s' = timerReturn p reg esr elr s) := by
  unfold el2_exception_common at h
  by_cases h1 : esr_ec esr = 0x01
  · simp only [h1, if_true, Outcome.returned.injEq] at h
    exact Or.inl ⟨h1, h.symm⟩
  by_cases h16 : esr_ec esr = 0x16
  · simp only [if_neg h1, if_pos h16] at h
    -- only a hypercall whose handler returned `true` comes back
    have hy : handle_guest_hvc esr s = .yes s' := by
      split at h
      · rename_i hs; cases h; exact hs
      · cases h
      · cases h
    unfold handle_guest_hvc at hy
    by_cases h60 : esr &&& 0xffff = 0x60
    · rw [if_pos h60] at hy
      exact Or.inr (Or.inl ⟨h16, h60, handle_guest_task_report_yes hp hy⟩)
    by_cases h61 : esr &&& 0xffff = 0x61
    · rw [if_neg h60, if_pos h61, handle_guest_time_override_eq hp] at hy
      cases hy
      exact Or.inr (Or.inr (Or.inl ⟨h16, h61, rfl⟩))
    rw [if_neg h60, if_neg h61] at hy
    split at hy <;> cases hy
  by_cases h18 : esr_ec esr = 0x18
  · simp only [if_neg h1, if_neg h16, if_pos h18] at h
    have hy : handle_timer_sysreg esr elr s = .yes s' := by
      split at h
      · rename_i hs; cases h; exact hs
      · cases h
      · cases h
    simp only [handle_timer_sysreg, handle_timer_sysreg_result, hp] at hy
    cases hreg : timerCase (esr_sys64_sysreg esr) with
    | none =>
      rw [hreg] at hy
      cases hy
    | some reg =>
      rw [hreg] at hy
      cases hy
      exact Or.inr (Or.inr (Or.inr ⟨h18, reg, rfl, rfl⟩))
  simp only [if_neg h1, if_neg h16, if_neg h18] at h
  cases h

theorem HandlerFrame.overrideReturn (p : VcpuPtr) (s : State) :
    HandlerFrame p s (overrideReturn p s) := by
  unfold Schism.overrideReturn
  refine trans ?_ (onTf _)
  refine trans ?_ (msr rfl _)
  refine trans ?_ (msr rfl _)
  refine trans ?_ (msr rfl _)
  refine trans ?_ (msr rfl _)
  refine trans ?_ (msr rfl _)
  exact elapse.trans (onArch (fun _ => rfl) (fun _ => rfl) (fun _ => rfl))

theorem el2_exception_common_frame {esr elr spsr far code : U64} {s s' : State} {p : VcpuPtr}
    (hp : s.sched.current = some p)
    (h : el2_exception_common esr elr spsr far code s = .returned s') : HandlerFrame p s s' := by
  rcases el2_exception_common_cases hp h with
    ⟨-, rfl⟩ | ⟨-, -, out, rfl⟩ | ⟨-, -, rfl⟩ | ⟨-, reg, -, rfl⟩
  · exact HandlerFrame.handle_wfx hp elr
  · exact HandlerFrame.print out
  · exact HandlerFrame.overrideReturn p s
  · exact (HandlerFrame.elapse.trans (HandlerFrame.emulate_timer _ _ _ _)).trans
      (HandlerFrame.advance_guest_elr elr)

/-! ## The effect on the current vCPU -/

section Current

variable {s : State} {p : VcpuPtr}

@[simp] theorem onTf_tf (f : Trapframe → Trapframe) :
    ((s.onTf p f).vcpu p).arch.tf = f (s.vcpu p).arch.tf := by
  simp [State.onTf]

/-- A timer access writes nothing of the vCPU but its frame, and not `CNTVOFF_EL2`. -/
structure OnlyTf (p : VcpuPtr) (s s' : State) : Prop where
  request_yield : (s'.vcpu p).request_yield = (s.vcpu p).request_yield
  cntvct : (s'.vcpu p).arch.cntvct_el0 = (s.vcpu p).arch.cntvct_el0
  cntvoff : (s'.vcpu p).arch.cntvoff_el2 = (s.vcpu p).arch.cntvoff_el2
  sys_cntvoff : s'.m.sys .CNTVOFF_EL2 = s.m.sys .CNTVOFF_EL2

theorem OnlyTf.trans {s' s'' : State} (h : OnlyTf p s s') (h' : OnlyTf p s' s'') : OnlyTf p s s'' where
  request_yield := h'.request_yield.trans h.request_yield
  cntvct := h'.cntvct.trans h.cntvct
  cntvoff := h'.cntvoff.trans h.cntvoff
  sys_cntvoff := h'.sys_cntvoff.trans h.sys_cntvoff

theorem OnlyTf.refl (p : VcpuPtr) (s : State) : OnlyTf p s s := ⟨rfl, rfl, rfl, rfl⟩

theorem OnlyTf.elapse : OnlyTf p s s.elapse := ⟨rfl, rfl, rfl, rfl⟩

theorem OnlyTf.onTf (f : Trapframe → Trapframe) : OnlyTf p s (s.onTf p f) := by
  refine ⟨State.onArch_request_yield _ _ _ _, ?_, ?_, rfl⟩ <;> simp [State.onTf]

theorem OnlyTf.msr {r : SysReg} (hr : r ≠ .CNTVOFF_EL2) (v : U64) : OnlyTf p s (s.msr r v) :=
  ⟨rfl, rfl, rfl, Machine.msr_sys_of_ne _ _ hr.symm⟩

theorem OnlyTf.setGpr (rt : U32) (v : U64) : OnlyTf p s (s.setGpr p rt v) := by
  unfold State.setGpr
  split
  · exact OnlyTf.onTf _
  · exact OnlyTf.refl p s

theorem OnlyTf.timerReturn (reg : TimerReg) (esr elr : U64) :
    OnlyTf p s (timerReturn p reg esr elr s) := by
  have emul : ∀ (is_read : Bool) (rt : U32) (virt_now : U64),
      OnlyTf p s.elapse (emulate_timer p reg is_read rt virt_now s.elapse) := by
    intro is_read rt virt_now
    cases reg <;> cases is_read
    case CNTPCT_EL0.false | CNTVCT_EL0.false => exact .refl _ _
    case CNTPCT_EL0.true | CNTVCT_EL0.true | CNTP_TVAL_EL0.true => exact .setGpr _ _
    case CNTP_CTL_EL0.true | CNTV_CTL_EL0.true =>
      exact OnlyTf.elapse.trans ((OnlyTf.onTf _).trans (.setGpr _ _))
    case CNTP_CVAL_EL0.true | CNTV_CVAL_EL0.true | CNTV_TVAL_EL0.true =>
      exact (OnlyTf.onTf _).trans (.setGpr _ _)
    all_goals exact (OnlyTf.onTf _).trans (.msr (by decide) _)
  unfold Schism.timerReturn advance_guest_elr
  exact OnlyTf.elapse.trans ((emul _ _ _).trans ((OnlyTf.msr (by decide) _).trans (.onTf _)))

variable {esr elr spsr far code : U64} {s' : State}

/-- The hypercall that sets the virtual time. -/
def IsTimeOverride (esr : U64) : Prop := esr_ec esr = 0x16 ∧ esr &&& 0xffff = 0x61

instance (esr : U64) : Decidable (IsTimeOverride esr) := inferInstanceAs (Decidable (_ ∧ _))

theorem overrideReturn_cntvct (p : VcpuPtr) (s : State) :
    ((overrideReturn p s).vcpu p).arch.cntvct_el0 = (s.vcpu p).arch.tf.regs 0 := by
  simp [overrideReturn, State.onTf, State.msr]

theorem overrideReturn_cntvoff (p : VcpuPtr) (s : State) :
    ((overrideReturn p s).vcpu p).arch.cntvoff_el2 = (overrideReturn p s).m.sys .CNTVOFF_EL2 := by
  simp [overrideReturn, State.onTf, State.msr, Machine.msr_sys]

theorem overrideReturn_request_yield (p : VcpuPtr) (s : State) :
    ((overrideReturn p s).vcpu p).request_yield = (s.vcpu p).request_yield := by
  simp [overrideReturn, State.onTf, State.msr, State.elapse]

/-- Writing back the value just read leaves the frame as it was. -/
theorem overrideReturn_tf (p : VcpuPtr) (s : State) :
    ((overrideReturn p s).vcpu p).arch.tf = (s.vcpu p).arch.tf := by
  simp [overrideReturn, State.onTf, State.msr, State.elapse]

theorem handle_wfx_eq (hp : s.sched.current = some p) (elr : U64) :
    handle_wfx elr s = (((s.print [.puts "EL2: WFI/WFE from guest detected, yielding...\n"]).msr
      .ELR_EL2 (elr + 4)).onTf p fun tf => { tf with elr_el1 := elr + 4 }).setRequestYield p true := by
  simp only [handle_wfx, State.msr, State.onMachine_sched, State.print_sched, hp]

/-- Exactly WFI and WFE set the request flag. -/
theorem el2_exception_common_request_yield (hp : s.sched.current = some p)
    (h : el2_exception_common esr elr spsr far code s = .returned s') :
    (s'.vcpu p).request_yield = (decide (esr_ec esr = 0x01) || (s.vcpu p).request_yield) := by
  rcases el2_exception_common_cases hp h with
    ⟨hec, rfl⟩ | ⟨hec, -, out, rfl⟩ | ⟨hec, -, rfl⟩ | ⟨hec, reg, -, rfl⟩
  · rw [handle_wfx_eq hp, State.setRequestYield_self, hec]; rfl
  · rw [hec]; rfl
  · rw [overrideReturn_request_yield, hec]; rfl
  · rw [(OnlyTf.timerReturn reg esr elr).request_yield, hec]; rfl

/-- Only the time override changes the counter snapshot. -/
theorem el2_exception_common_cntvct (hp : s.sched.current = some p)
    (h : el2_exception_common esr elr spsr far code s = .returned s') :
    (s'.vcpu p).arch.cntvct_el0 =
      if IsTimeOverride esr then (s.vcpu p).arch.tf.regs 0 else (s.vcpu p).arch.cntvct_el0 := by
  rcases el2_exception_common_cases hp h with
    ⟨hec, rfl⟩ | ⟨hec, hi, out, rfl⟩ | ⟨hec, hi, rfl⟩ | ⟨hec, reg, -, rfl⟩
  · rw [if_neg (by simp [IsTimeOverride, hec]), handle_wfx_eq hp, State.setRequestYield_arch]
    simp [State.onTf, State.msr]
  · have hn : ¬ IsTimeOverride esr := fun h61 => absurd (hi.symm.trans h61.2) (by decide)
    rw [if_neg hn]; rfl
  · rw [if_pos ⟨hec, hi⟩, overrideReturn_cntvct]
  · rw [if_neg (by simp [IsTimeOverride, hec]), (OnlyTf.timerReturn reg esr elr).cntvct]

/-- The handler keeps the programmed offset equal to the one in memory. -/
theorem el2_exception_common_cntvoff (hp : s.sched.current = some p)
    (h : el2_exception_common esr elr spsr far code s = .returned s')
    (hs : s.m.sys .CNTVOFF_EL2 = (s.vcpu p).arch.cntvoff_el2) :
    s'.m.sys .CNTVOFF_EL2 = (s'.vcpu p).arch.cntvoff_el2 := by
  rcases el2_exception_common_cases hp h with
    ⟨-, rfl⟩ | ⟨-, -, out, rfl⟩ | ⟨-, -, rfl⟩ | ⟨-, reg, -, rfl⟩
  · rw [handle_wfx_eq hp, State.setRequestYield_arch]
    simpa [State.onTf, State.msr, Machine.msr_sys] using hs
  · exact hs
  · exact (overrideReturn_cntvoff p s).symm
  · rw [(OnlyTf.timerReturn reg esr elr).cntvoff, (OnlyTf.timerReturn reg esr elr).sys_cntvoff, hs]

/-- The offset that is programmed when the handler returns. -/
theorem el2_exception_common_sys_cntvoff (hp : s.sched.current = some p)
    (h : el2_exception_common esr elr spsr far code s = .returned s') :
    s'.m.sys .CNTVOFF_EL2 = if IsTimeOverride esr then
      (s.vcpu p).arch.tf.regs 0 - s.m.elapse.cntpct else s.m.sys .CNTVOFF_EL2 := by
  rcases el2_exception_common_cases hp h with
    ⟨hec, rfl⟩ | ⟨hec, hi, out, rfl⟩ | ⟨hec, hi, rfl⟩ | ⟨hec, reg, -, rfl⟩
  · rw [if_neg (by simp [IsTimeOverride, hec]), handle_wfx_eq hp]
    simp [State.onTf, State.msr, Machine.msr_sys]
  · have hn : ¬ IsTimeOverride esr := fun h61 => absurd (hi.symm.trans h61.2) (by decide)
    rw [if_neg hn]; rfl
  · rw [if_pos ⟨hec, hi⟩]
    simp [overrideReturn, State.onTf, State.msr, Machine.msr_sys, State.elapse]
  · rw [if_neg (by simp [IsTimeOverride, hec]), (OnlyTf.timerReturn reg esr elr).sys_cntvoff]

/-- How often the handler reads a counter, or a register that depends on one. -/
def handlerReads (esr : U64) : ℕ :=
  if IsTimeOverride esr then 1
  else if esr_ec esr = 0x18 then
    match timerCase (esr_sys64_sysreg esr), esr_sys64_is_read esr with
    | some .CNTP_CTL_EL0, true | some .CNTV_CTL_EL0, true => 2
    | _, _ => 1
  else 0

theorem setGpr_m (rt : U32) (v : U64) : (s.setGpr p rt v).m = s.m := by
  unfold State.setGpr
  split <;> rfl

theorem el2_exception_common_instant (hp : s.sched.current = some p)
    (h : el2_exception_common esr elr spsr far code s = .returned s') :
    s'.m.instant = s.m.instant + handlerReads esr := by
  rcases el2_exception_common_cases hp h with
    ⟨hec, rfl⟩ | ⟨hec, hi, out, rfl⟩ | ⟨hec, hi, rfl⟩ | ⟨hec, reg, hreg, rfl⟩
  · rw [handlerReads, if_neg (by simp [IsTimeOverride, hec]), if_neg (by simp [hec]),
      handle_wfx_eq hp]
    rfl
  · have hn : ¬ IsTimeOverride esr := fun h61 => absurd (hi.symm.trans h61.2) (by decide)
    rw [handlerReads, if_neg hn, if_neg (by simp [hec])]
    rfl
  · rw [handlerReads, if_pos ⟨hec, hi⟩]
    rfl
  · rw [handlerReads, if_neg (by simp [IsTimeOverride, hec]), if_pos hec, hreg, timerReturn]
    have hadv : ∀ t : State, (advance_guest_elr p elr t).m.instant = t.m.instant := fun _ => rfl
    rw [hadv]
    cases reg <;> cases esr_sys64_is_read esr <;>
      first
      | rfl
      | exact congrArg Machine.instant (setGpr_m _ _)

/-! ## The effect on the frame -/

/-- The timer access that a syndrome decodes to: register, whether it is a read, and `Rt`. -/
def timerAccess (esr : U64) : Option (TimerReg × Bool × U32) :=
  if esr_ec esr = 0x18 then
    (timerCase (esr_sys64_sysreg esr)).map (·, esr_sys64_is_read esr, esr_sys64_rt esr)
  else none

/-- The trapped instruction reads a timer register into general-purpose register `i`. -/
def TimerReadInto (esr : U64) (i : Fin 31) : Prop :=
  ∃ reg rt, timerAccess esr = some (reg, true, rt) ∧ rt.toNat = i.val

/-- The trapped instruction writes the timer register `reg`. -/
def TimerWrite (esr : U64) (reg : TimerReg) : Prop := ∃ rt, timerAccess esr = some (reg, false, rt)

/-- The handler's changes to the frame are those of the trapped instruction. The resume address is
treated apart. -/
structure FrameKept (esr : U64) (tf tf' : Trapframe) : Prop where
  regs : ∀ i, ¬ TimerReadInto esr i → tf'.regs i = tf.regs i
  sp_el1 : tf'.sp_el1 = tf.sp_el1
  spsr_el1 : tf'.spsr_el1 = tf.spsr_el1
  ttbr0_el1 : tf'.ttbr0_el1 = tf.ttbr0_el1
  ttbr1_el1 : tf'.ttbr1_el1 = tf.ttbr1_el1
  tcr_el1 : tf'.tcr_el1 = tf.tcr_el1
  sctlr_el1 : tf'.sctlr_el1 = tf.sctlr_el1
  tpidr_el1 : tf'.tpidr_el1 = tf.tpidr_el1
  cntkctl_el1 : tf'.cntkctl_el1 = tf.cntkctl_el1
  cntp_ctl : ¬ TimerWrite esr .CNTP_CTL_EL0 → tf'.cntp_ctl_el0 &&& 0x3 = tf.cntp_ctl_el0 &&& 0x3
  cntp_cval : ¬ TimerWrite esr .CNTP_CVAL_EL0 → ¬ TimerWrite esr .CNTP_TVAL_EL0 →
    tf'.cntp_cval_el0 = tf.cntp_cval_el0
  cntv_ctl : ¬ TimerWrite esr .CNTV_CTL_EL0 → tf'.cntv_ctl_el0 &&& 0x3 = tf.cntv_ctl_el0 &&& 0x3
  cntv_cval : ¬ TimerWrite esr .CNTV_CVAL_EL0 → ¬ TimerWrite esr .CNTV_TVAL_EL0 →
    tf'.cntv_cval_el0 = tf.cntv_cval_el0

theorem FrameKept.refl (esr : U64) (tf : Trapframe) : FrameKept esr tf tf :=
  ⟨fun _ _ => rfl, rfl, rfl, rfl, rfl, rfl, rfl, rfl, rfl, fun _ => rfl, fun _ _ => rfl, fun _ => rfl,
    fun _ _ => rfl⟩

theorem FrameKept.trans {tf tf' tf'' : Trapframe} (h : FrameKept esr tf tf')
    (h' : FrameKept esr tf' tf'') : FrameKept esr tf tf'' where
  regs i hi := (h'.regs i hi).trans (h.regs i hi)
  sp_el1 := h'.sp_el1.trans h.sp_el1
  spsr_el1 := h'.spsr_el1.trans h.spsr_el1
  ttbr0_el1 := h'.ttbr0_el1.trans h.ttbr0_el1
  ttbr1_el1 := h'.ttbr1_el1.trans h.ttbr1_el1
  tcr_el1 := h'.tcr_el1.trans h.tcr_el1
  sctlr_el1 := h'.sctlr_el1.trans h.sctlr_el1
  tpidr_el1 := h'.tpidr_el1.trans h.tpidr_el1
  cntkctl_el1 := h'.cntkctl_el1.trans h.cntkctl_el1
  cntp_ctl hw := (h'.cntp_ctl hw).trans (h.cntp_ctl hw)
  cntp_cval hw hw' := (h'.cntp_cval hw hw').trans (h.cntp_cval hw hw')
  cntv_ctl hw := (h'.cntv_ctl hw).trans (h.cntv_ctl hw)
  cntv_cval hw hw' := (h'.cntv_cval hw hw').trans (h.cntv_cval hw hw')

/-- A read may change the register it names, and nothing when it names the zero register. -/
theorem FrameKept.setGpr {reg : TimerReg} {rt : U32} (ha : timerAccess esr = some (reg, true, rt))
    (s : State) (v : U64) :
    FrameKept esr (s.vcpu p).arch.tf ((s.setGpr p rt v).vcpu p).arch.tf := by
  unfold State.setGpr
  split
  · rename_i hlt
    rw [onTf_tf]
    refine { FrameKept.refl esr (s.vcpu p).arch.tf with regs := ?_ }
    intro i hi
    refine Function.update_of_ne (fun h => hi ⟨reg, rt, ha, ?_⟩) _ _
    rw [h]
  · exact FrameKept.refl esr _

/-- The frame and the timer registers agree, as they do right after the save. -/
structure TimerSync (m : Machine) (a : VcpuArch) : Prop where
  cntp_ctl : a.tf.cntp_ctl_el0 &&& 0x3 = m.sys .CNTP_CTL_EL0 &&& 0x3
  cntp_cval : a.tf.cntp_cval_el0 = m.sys .CNTP_CVAL_EL0 + a.cntvoff_el2
  cntv_ctl : a.tf.cntv_ctl_el0 &&& 0x3 = m.sys .CNTV_CTL_EL0 &&& 0x3
  cntv_cval : a.tf.cntv_cval_el0 = m.sys .CNTV_CVAL_EL0

/-- The frame after an emulated access: every branch of the `switch` changes what the access names
and, on a read, refreshes fields that already hold the hardware's value. -/
theorem emulate_timer_kept {reg : TimerReg} {is_read : Bool} {rt : U32}
    (ha : timerAccess esr = some (reg, is_read, rt)) (hs : TimerSync s.m (s.vcpu p).arch)
    (virt_now : U64) :
    FrameKept esr (s.vcpu p).arch.tf ((emulate_timer p reg is_read rt virt_now s).vcpu p).arch.tf := by
  have hw : is_read = false → TimerWrite esr reg := fun h => ⟨rt, by rw [ha, h]⟩
  cases is_read with
  | true =>
    have read : ∀ (s' : State) (v : U64), FrameKept esr (s.vcpu p).arch.tf (s'.vcpu p).arch.tf →
        FrameKept esr (s.vcpu p).arch.tf ((s'.setGpr p rt v).vcpu p).arch.tf :=
      fun s' v h => h.trans (FrameKept.setGpr ha s' v)
    cases reg with
    | CNTPCT_EL0 | CNTVCT_EL0 | CNTP_TVAL_EL0 => exact read _ _ (.refl esr _)
    | CNTP_CVAL_EL0 =>
      refine read _ _ ?_
      rw [onTf_tf]
      exact { FrameKept.refl esr _ with cntp_cval := fun _ _ => hs.cntp_cval.symm }
    | CNTP_CTL_EL0 =>
      refine read _ _ ?_
      rw [onTf_tf]
      exact { FrameKept.refl esr _ with
        cntp_ctl := fun _ => (Machine.timerCtl_and_three _ _ _).trans hs.cntp_ctl.symm }
    | CNTV_CVAL_EL0 | CNTV_TVAL_EL0 =>
      refine read _ _ ?_
      rw [onTf_tf]
      exact { FrameKept.refl esr _ with cntv_cval := fun _ _ => hs.cntv_cval.symm }
    | CNTV_CTL_EL0 =>
      refine read _ _ ?_
      rw [onTf_tf]
      exact { FrameKept.refl esr _ with
        cntv_ctl := fun _ => (Machine.timerCtl_and_three _ _ _).trans hs.cntv_ctl.symm }
  | false =>
    -- the field that changes is the one the write names
    have hw := hw rfl
    have write : ∀ (f : Trapframe → Trapframe) (r : SysReg) (v : U64),
        FrameKept esr (s.vcpu p).arch.tf (f (s.vcpu p).arch.tf) →
        FrameKept esr (s.vcpu p).arch.tf (((s.onTf p f).msr r v).vcpu p).arch.tf := by
      intro f r v h
      rw [State.msr, State.onMachine_vcpu, onTf_tf]
      exact h
    cases reg with
    | CNTPCT_EL0 | CNTVCT_EL0 => exact .refl esr _
    | CNTP_CVAL_EL0 =>
      exact write _ _ _ { FrameKept.refl esr _ with cntp_cval := fun h _ => absurd hw h }
    | CNTP_TVAL_EL0 =>
      exact write _ _ _ { FrameKept.refl esr _ with cntp_cval := fun _ h => absurd hw h }
    | CNTP_CTL_EL0 =>
      exact write _ _ _ { FrameKept.refl esr _ with cntp_ctl := fun h => absurd hw h }
    | CNTV_CVAL_EL0 =>
      exact write _ _ _ { FrameKept.refl esr _ with cntv_cval := fun h _ => absurd hw h }
    | CNTV_TVAL_EL0 =>
      exact write _ _ _ { FrameKept.refl esr _ with cntv_cval := fun _ h => absurd hw h }
    | CNTV_CTL_EL0 =>
      exact write _ _ _ { FrameKept.refl esr _ with cntv_ctl := fun h => absurd hw h }

/-- The frame after the handler, when it returns. -/
theorem el2_exception_common_kept (hp : s.sched.current = some p)
    (h : el2_exception_common esr elr spsr far code s = .returned s')
    (hs : TimerSync s.m (s.vcpu p).arch) :
    FrameKept esr (s.vcpu p).arch.tf (s'.vcpu p).arch.tf := by
  rcases el2_exception_common_cases hp h with
    ⟨-, rfl⟩ | ⟨-, -, out, rfl⟩ | ⟨-, -, rfl⟩ | ⟨hec, reg, hreg, rfl⟩
  · rw [handle_wfx_eq hp, State.setRequestYield_arch, onTf_tf]
    exact { FrameKept.refl esr (s.vcpu p).arch.tf with }
  · exact .refl esr _
  · rw [overrideReturn_tf]
    exact .refl esr _
  · have ha : timerAccess esr = some (reg, esr_sys64_is_read esr, esr_sys64_rt esr) := by
      rw [timerAccess, if_pos hec, hreg]; rfl
    have he : TimerSync s.elapse.m (s.elapse.vcpu p).arch := ⟨hs.1, hs.2, hs.3, hs.4⟩
    refine (emulate_timer_kept ha he s.elapse.m.cntvct).trans ?_
    unfold timerReturn advance_guest_elr
    rw [onTf_tf]
    exact { FrameKept.refl esr _ with }

/-- The resume address: past the instruction for WFI, WFE and timer accesses, unchanged for
hypercalls, whose `ELR_EL2` already is the next instruction. -/
theorem el2_exception_common_elr (hp : s.sched.current = some p)
    (h : el2_exception_common esr elr spsr far code s = .returned s') :
    (s'.vcpu p).arch.tf.elr_el1 =
      if esr_ec esr = 0x16 then (s.vcpu p).arch.tf.elr_el1 else elr + 4 := by
  rcases el2_exception_common_cases hp h with
    ⟨hec, rfl⟩ | ⟨hec, -, out, rfl⟩ | ⟨hec, -, rfl⟩ | ⟨hec, reg, -, rfl⟩
  · rw [if_neg (by simp [hec]), handle_wfx_eq hp, State.setRequestYield_arch, onTf_tf]
  · rw [if_pos hec]; rfl
  · rw [if_pos hec, overrideReturn_tf]
  · rw [if_neg (by simp [hec]), timerReturn, advance_guest_elr, onTf_tf]

end Current

end Schism
