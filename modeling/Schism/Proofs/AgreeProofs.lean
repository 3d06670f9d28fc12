import Schism.Proofs.ServedProofs
import Schism.Proofs.TimeProofs

/-!
# Two states that one vCPU cannot tell apart

`Agree p` relates two states with the same machine registers and the same `p->arch`. Whatever EL2 does
on behalf of `p` keeps it, since the handlers read nothing else. `SameFor A` is the weaker relation
that is left when `A` runs with different data: all that the other vCPUs depend on.
-/

namespace Schism

/-! ## Serving a trap of `p` -/

theorem Machine.mrs_congr {m₁ m₂ : Machine} (hsys : m₁.sys = m₂.sys) (hclock : m₁.clock = m₂.clock)
    (hinstant : m₁.instant = m₂.instant) (r : SysReg) : m₁.mrs r = m₂.mrs r := by
  simp only [mrs, cntvct, cntpct, hsys, hclock, hinstant]

/-- The state in which the handler returns without having emulated a timer access. -/
def otherReturn (p : VcpuPtr) (esr elr : U64) (out : List Out) (s : State) : State :=
  if esr_ec esr = 0x01 then handle_wfx elr s
  else if IsTimeOverride esr then overrideReturn p s
  else s.print out

/-- What EL2 reads when it serves a trap of `p`. -/
structure Agree (p : VcpuPtr) (s₁ s₂ : State) : Prop where
  sys : s₁.m.sys = s₂.m.sys
  q : s₁.m.q = s₂.m.q
  clock : s₁.m.clock = s₂.m.clock
  instant : s₁.m.instant = s₂.m.instant
  arch : (s₁.vcpu p).arch = (s₂.vcpu p).arch

namespace Agree

variable {p : VcpuPtr} {s₁ s₂ : State}

theorem cntpct (h : Agree p s₁ s₂) : s₁.m.cntpct = s₂.m.cntpct := by
  rw [Machine.cntpct, Machine.cntpct, h.clock, h.instant]

theorem cntvct (h : Agree p s₁ s₂) : s₁.m.cntvct = s₂.m.cntvct := by
  rw [Machine.cntvct, Machine.cntvct, h.cntpct, h.sys]

theorem mrs (h : Agree p s₁ s₂) (r : SysReg) : s₁.m.mrs r = s₂.m.mrs r :=
  Machine.mrs_congr h.sys h.clock h.instant r

theorem gpr (h : Agree p s₁ s₂) (rt : U32) : s₁.gpr p rt = s₂.gpr p rt := by
  unfold State.gpr
  rw [h.arch]

theorem elapse (h : Agree p s₁ s₂) : Agree p s₁.elapse s₂.elapse where
  sys := h.sys
  q := h.q
  clock := h.clock
  instant := congrArg (· + 1) h.instant
  arch := h.arch

theorem msr (h : Agree p s₁ s₂) (r : SysReg) (v : U64) : Agree p (s₁.msr r v) (s₂.msr r v) where
  sys := by simp only [State.msr, State.onMachine_m, Machine.msr, h.sys]
  q := h.q
  clock := h.clock
  instant := h.instant
  arch := h.arch

theorem onArch (h : Agree p s₁ s₂) (f : VcpuArch → VcpuArch) :
    Agree p (s₁.onArch p f) (s₂.onArch p f) where
  sys := h.sys
  q := h.q
  clock := h.clock
  instant := h.instant
  arch := by rw [State.onArch_arch_self, State.onArch_arch_self, h.arch]

theorem onTf (h : Agree p s₁ s₂) (f : Trapframe → Trapframe) : Agree p (s₁.onTf p f) (s₂.onTf p f) :=
  h.onArch _

theorem setGpr (h : Agree p s₁ s₂) (rt : U32) (v : U64) :
    Agree p (s₁.setGpr p rt v) (s₂.setGpr p rt v) := by
  unfold State.setGpr
  split
  · exact h.onTf _
  · exact h

/-- The console does not matter. -/
theorem print (h : Agree p s₁ s₂) (out₁ out₂ : List Out) : Agree p (s₁.print out₁) (s₂.print out₂) :=
  ⟨h.sys, h.q, h.clock, h.instant, h.arch⟩

theorem setRequestYield (h : Agree p s₁ s₂) (b : Bool) :
    Agree p (s₁.setRequestYield p b) (s₂.setRequestYield p b) where
  sys := h.sys
  q := h.q
  clock := h.clock
  instant := h.instant
  arch := by rw [State.setRequestYield_arch, State.setRequestYield_arch, h.arch]

theorem advance_guest_elr (h : Agree p s₁ s₂) (elr : U64) :
    Agree p (advance_guest_elr p elr s₁) (advance_guest_elr p elr s₂) := by
  unfold Schism.advance_guest_elr
  exact (h.msr _ _).onTf _

theorem emulate_timer (h : Agree p s₁ s₂) (reg : TimerReg) (is_read : Bool) (rt : U32)
    (virt_now : U64) :
    Agree p (emulate_timer p reg is_read rt virt_now s₁) (emulate_timer p reg is_read rt virt_now s₂) := by
  have he := h.elapse
  cases reg <;> cases is_read <;> simp only [Schism.emulate_timer, h.mrs, he.mrs, h.gpr, h.arch]
  case CNTPCT_EL0.false | CNTVCT_EL0.false => exact h
  case CNTPCT_EL0.true | CNTVCT_EL0.true | CNTP_TVAL_EL0.true => exact h.setGpr _ _
  case CNTP_CTL_EL0.true | CNTV_CTL_EL0.true => exact (he.onTf _).setGpr _ _
  case CNTP_CVAL_EL0.true | CNTV_CVAL_EL0.true | CNTV_TVAL_EL0.true => exact (h.onTf _).setGpr _ _
  all_goals exact (h.onTf _).msr _ _

theorem overrideReturn (h : Agree p s₁ s₂) : Agree p (overrideReturn p s₁) (overrideReturn p s₂) := by
  have he := h.elapse
  unfold Schism.overrideReturn
  rw [h.arch, he.cntpct]
  exact ((((((he.onArch _).msr _ _).msr _ _).msr _ _).msr _ _).msr _ _).onTf _

theorem handle_wfx (h : Agree p s₁ s₂) (h₁ : s₁.sched.current = some p)
    (h₂ : s₂.sched.current = some p) (elr : U64) : Agree p (handle_wfx elr s₁) (handle_wfx elr s₂) := by
  rw [handle_wfx_eq h₁, handle_wfx_eq h₂]
  exact (((h.print _ _).msr _ _).onTf _).setRequestYield _

theorem otherReturn (h : Agree p s₁ s₂) (h₁ : s₁.sched.current = some p)
    (h₂ : s₂.sched.current = some p) (esr elr : U64) (out₁ out₂ : List Out) :
    Agree p (otherReturn p esr elr out₁ s₁) (otherReturn p esr elr out₂ s₂) := by
  unfold Schism.otherReturn
  split
  · exact h.handle_wfx h₁ h₂ elr
  · split
    · exact h.overrideReturn
    · exact h.print out₁ out₂

end Agree

/-! ## What a served trap does to the clock and to the request flag -/

/-- How often serving the trap reads a counter, or a register that depends on one. -/
def servedReads (esr : U64) : Option Access → ℕ
  | none => handlerReads esr
  | some (.CNTP_CTL_EL0, true, _) | some (.CNTV_CTL_EL0, true, _) => 2
  | some _ => 1

section Served

variable {r : Running} {sl : Slice} {a : Option Access} {s' : State}

theorem handle_other (hr : RunInv r) (h : r.handle sl = .returned s')
    (hn : timerAccess (r.trapEsr sl) = none) :
    ∃ out, s' = otherReturn r.vcpu (r.trapEsr sl) sl.pc out (r.trapped sl) := by
  unfold otherReturn
  rcases el2_exception_common_cases (trapped_coherent hr sl).current
    ((handle_eq hr.latch).symm.trans h) with
    ⟨hec, rfl⟩ | ⟨hec, hi, out, rfl⟩ | ⟨hec, hi, rfl⟩ | ⟨hec, reg, hreg, rfl⟩
  · exact ⟨[], by rw [if_pos hec]⟩
  · have h61 : ¬ IsTimeOverride (r.trapEsr sl) := fun h61 => absurd (hi.symm.trans h61.2) (by decide)
    exact ⟨out, by rw [if_neg (by rw [hec]; decide), if_neg h61]⟩
  · exact ⟨[], by rw [if_neg (by rw [hec]; decide), if_pos ⟨hec, hi⟩]⟩
  · rw [timerAccess, if_pos hec, hreg] at hn
    cases hn

theorem Served.instant (hr : RunInv r) (h : Served r sl a s') :
    s'.m.instant = r.st.m.instant + 1 + servedReads (r.trapEsr sl) a := by
  cases h with
  | access a =>
    obtain ⟨reg, is_read, rt⟩ := a
    have hm : (r.trapped sl).m.instant = r.st.m.instant + 1 := by
      rw [trapped_m hr.latch, exitMachine_instant]
    rw [← hm]
    cases reg <;> cases is_read <;>
      first
      | rfl
      | exact congrArg Machine.instant (setGpr_m _ _)
  | other h _ => exact handle_instant hr h

theorem Served.request_yield (hr : RunInv r) (h : Served r sl a s') :
    (s'.vcpu r.vcpu).request_yield =
      (decide (a = none ∧ esr_ec (r.trapEsr sl) = 0x01) || (r.st.vcpu r.vcpu).request_yield) := by
  cases h with
  | access a =>
    have hkeep : ((r.emulated sl a).vcpu r.vcpu).request_yield =
        ((r.trapped sl).vcpu r.vcpu).request_yield := by
      obtain ⟨reg, is_read, rt⟩ := a
      have set : ∀ (s : State) (v : U64), ((s.setGpr r.vcpu rt v).vcpu r.vcpu).request_yield =
          (s.vcpu r.vcpu).request_yield := fun s v => (OnlyTf.setGpr rt v).request_yield
      cases reg <;> cases is_read <;>
        simp [Running.emulated, advance_guest_elr, emulate_timer, State.onTf, State.msr, set,
          State.elapse]
    rw [hkeep, trapped_request_yield hr.latch]
    simp
  | other h _ =>
    rw [handle_request_yield hr h]
    simp

end Served

end Schism
