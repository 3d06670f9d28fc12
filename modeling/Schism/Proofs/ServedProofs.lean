import Schism.Proofs.ContextProofs

/-!
# Steps whose timer access is given

`handle_timer_sysreg` decodes an access and then emulates it. In `Served` the decoded access is an
argument, so that what is proved about the emulation holds for any decoder; the hypervisor's own steps
are those in which the access is the one that its decoder finds (`handle_served`).
-/

namespace Schism

/-- Register, whether the access is a read, and `Rt`. -/
abbrev Access := TimerReg × Bool × U32

/-- The state after `handle_timer_sysreg` has emulated the access `a` for the vCPU that trapped. -/
def Running.emulated (r : Running) (sl : Slice) (a : Access) : State :=
  let s := (r.trapped sl).elapse
  advance_guest_elr r.vcpu sl.pc (emulate_timer r.vcpu a.1 a.2.1 a.2.2 s.m.cntvct s)

/-- EL2 has served the trap that ends the slice, by emulating a timer access or in another way. -/
inductive Served (r : Running) (sl : Slice) : Option Access → State → Prop where
  | access (a : Access) : Served r sl (some a) (r.emulated sl a)
  | other {s' : State} (h : r.handle sl = .returned s') (hn : timerAccess (r.trapEsr sl) = none) :
      Served r sl none s'

/-- One slice, the trap that ends it, served with the access `a`, and EL2 up to the next entry. -/
def ServedStep (r : Running) (sl : Slice) (a : Option Access) (r' : Running) : Prop :=
  ∃ s', Served r sl a s' ∧ r.resume s' = some r'

section Served

variable {r r' : Running} {sl : Slice} {a : Option Access} {s' : State}

/-- What the handler does is to serve the access it decodes. -/
theorem handle_served (hr : RunInv r) (h : r.handle sl = .returned s') :
    Served r sl (timerAccess (r.trapEsr sl)) s' := by
  cases ha : timerAccess (r.trapEsr sl) with
  | none => exact .other h ha
  | some a =>
    have hret := (handle_eq hr.latch).symm.trans h
    unfold timerAccess at ha
    split at ha
    · rename_i hec
      obtain ⟨reg, hreg, rfl⟩ := Option.map_eq_some_iff.mp ha
      rcases el2_exception_common_cases (trapped_coherent hr sl).current hret with
        ⟨h', -⟩ | ⟨h', -⟩ | ⟨h', -⟩ | ⟨-, reg', hreg', rfl⟩
      · exact absurd (hec.symm.trans h') (by decide)
      · exact absurd (hec.symm.trans h') (by decide)
      · exact absurd (hec.symm.trans h') (by decide)
      · cases hreg.symm.trans hreg'
        exact .access (reg, _, _)
    · cases ha

/-- The handler returns on every access it decodes. -/
theorem handle_of_access {a : Access} (hr : RunInv r) (h : timerAccess (r.trapEsr sl) = some a) :
    r.handle sl = .returned (r.emulated sl a) := by
  unfold timerAccess at h
  split at h
  · rename_i hec
    obtain ⟨reg, hreg, rfl⟩ := Option.map_eq_some_iff.mp h
    have hcur := (trapped_coherent hr sl).current
    rw [handle_eq hr.latch]
    simp only [el2_exception_common, hec, handle_timer_sysreg, handle_timer_sysreg_result, hcur, hreg]
    rfl
  · cases h

theorem step_served (hr : RunInv r) (h : r.step sl = some r') :
    ServedStep r sl (timerAccess (r.trapEsr sl)) r' := by
  obtain ⟨s', hs', hr'⟩ := step_eq_some h
  exact ⟨s', handle_served hr hs', hr'⟩

theorem Served.frame (hr : RunInv r) (h : Served r sl a s') :
    HandlerFrame r.vcpu (r.trapped sl) s' := by
  cases h with
  | access a =>
    exact (HandlerFrame.elapse.trans (HandlerFrame.emulate_timer _ _ _ _)).trans
      (HandlerFrame.advance_guest_elr sl.pc)
  | other h _ => exact handle_frame hr h

theorem ServedStep.inv (hr : RunInv r) (h : ServedStep r sl a r') : RunInv r' := by
  obtain ⟨s', hs', hr'⟩ := h
  exact resume_inv hr (hs'.frame hr) hr'

theorem ServedStep.entered (hr : RunInv r) (h : ServedStep r sl a r') : Entered r' := by
  obtain ⟨s', hs', hr'⟩ := h
  exact resume_entered hr (hs'.frame hr) hr'

end Served

end Schism
