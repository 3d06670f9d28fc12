import Schism.Proofs.TimeProofs

/-!
# Interrupts taken from a guest

An interrupt does not update `ESR_EL2`, and the handler dispatches on `ESR_EL2` whatever the vector was.
So the guest's last trap is served once more, on behalf of the guest that was interrupted.
-/

namespace Schism

/-- The slice ends with an interrupt. -/
def Slice.Async (sl : Slice) : Prop := sl.exit = .irq ∨ sl.exit = .fiq

/-- The hypercall that left its syndrome in `ESR_EL2` is carried out again: EL2 returns in the state in
which its handler returns. This counts also where the handler has no effect, as for a report at a null
pointer. -/
def ReplaysHypercall (r : Running) (sl : Slice) : Prop :=
  esr_ec (r.st.m.sys .ESR_EL2) = 0x16 ∧
    ∃ s', handle_guest_hvc (r.st.m.sys .ESR_EL2) (r.trapped sl) = .yes s' ∧
      r.handle sl = .returned s'

/-- EL2 returns from the exception without a trace in the guest: the frame still is what the slice left,
with the interrupted instruction as the resume address. -/
structure TransparentExit (r : Running) (sl : Slice) (s' : State) : Prop where
  returned : r.handle sl = .returned s'
  pc : (s'.vcpu r.vcpu).arch.tf.elr_el1 = sl.pc
  regs : (s'.vcpu r.vcpu).arch.tf.regs = sl.x
  cntp_ctl : (s'.vcpu r.vcpu).arch.tf.cntp_ctl_el0 = (r.exitMachine sl).mrs .CNTP_CTL_EL0
  cntp_cval : (s'.vcpu r.vcpu).arch.tf.cntp_cval_el0 =
    (r.exitMachine sl).sys .CNTP_CVAL_EL0 + (r.exitMachine sl).sys .CNTVOFF_EL2
  cntv_ctl : (s'.vcpu r.vcpu).arch.tf.cntv_ctl_el0 = (r.exitMachine sl).mrs .CNTV_CTL_EL0
  cntv_cval : (s'.vcpu r.vcpu).arch.tf.cntv_cval_el0 = (r.exitMachine sl).sys .CNTV_CVAL_EL0
  cntvct : (s'.vcpu r.vcpu).arch.cntvct_el0 = (r.st.vcpu r.vcpu).arch.cntvct_el0
  cntvoff : s'.m.sys .CNTVOFF_EL2 = (r.exitMachine sl).sys .CNTVOFF_EL2
  request_yield : (s'.vcpu r.vcpu).request_yield = (r.st.vcpu r.vcpu).request_yield
  no_replay : ¬ ReplaysHypercall r sl

section Async

variable {r : Running} {sl : Slice} {s' : State}

/-- The handler sees the syndrome of an earlier exception. -/
theorem trapEsr_async (r : Running) (hx : sl.Async) : r.trapEsr sl = r.st.m.sys .ESR_EL2 := by
  have h : r.trapEsr sl = _ := exitMachine_sys r sl .ESR_EL2
  rcases hx with hx | hx <;> simpa only [hx] using h

/-- A returning handler either has run a hypercall or has skipped an instruction. -/
theorem handle_hypercall_or_skips (hr : RunInv r) (h : r.handle sl = .returned s') :
    (esr_ec (r.trapEsr sl) = 0x16 ∧ handle_guest_hvc (r.trapEsr sl) (r.trapped sl) = .yes s') ∨
      (s'.vcpu r.vcpu).arch.tf.elr_el1 = sl.pc + 4 := by
  have hcur := (trapped_coherent hr sl).current
  have hret := (handle_eq hr.latch).symm.trans h
  by_cases hec : esr_ec (r.trapEsr sl) = 0x16
  · refine Or.inl ⟨hec, ?_⟩
    have h1 : ¬ esr_ec (r.trapEsr sl) = 0x01 := by
      rw [hec]
      decide
    unfold el2_exception_common at hret
    simp only [if_neg h1, if_pos hec] at hret
    split at hret
    · rename_i hs
      cases hret
      exact hs
    · cases hret
    · cases hret
  · have helr := el2_exception_common_elr hcur hret
    rw [if_neg hec] at helr
    exact Or.inr helr

/-- No interrupt passes unnoticed by the guest, whatever syndrome an earlier exception has left: if EL2
returns at all, it has replayed the hypercall or resumes after the interrupted instruction. -/
theorem async_exit_mistaken (hr : Reachable r) (hx : sl.Async) : ¬ ∃ s', TransparentExit r sl s' := by
  rintro ⟨s', ht⟩
  rcases handle_hypercall_or_skips (reachable_inv hr) ht.returned with ⟨hec, hyes⟩ | hskip
  · rw [trapEsr_async r hx] at hec hyes
    exact ht.no_replay ⟨hec, s', hyes, ht.returned⟩
  · rw [ht.pc] at hskip
    have h4 : (4 : U64) = 0 := by simpa using hskip.symm
    exact absurd h4 (by decide)

end Async

/-- A slice that an interrupt ends. -/
def irqSlice : Slice := { coldSlice 0 with exit := .irq }

/-- An interrupt that ends the first slice of the cold machine. -/
theorem async_exit_mistaken_cold : ¬ ∃ s', TransparentExit coldEntry irqSlice s' :=
  async_exit_mistaken coldEntry_reachable (Or.inl rfl)

/-- The state in which EL2 returns. -/
def Outcome.state? : Outcome → Option State
  | .returned s => some s
  | .hung _ => none

theorem Outcome.eq_returned {o : Outcome} {s : State} (h : o.state? = some s) : o = .returned s := by
  cases o with
  | returned s' => exact congrArg Outcome.returned (Option.some.inj h)
  | hung s' => cases h

/-- vCPU `0` of the cold machine waits. When an interrupt ends the first slice of vCPU `1`, EL2 takes it
for that wait: it skips an instruction of vCPU `1` and makes it yield. -/
theorem irq_taken_for_wfi :
    ¬ ∀ (r : Running) (sl : Slice), Reachable r → sl.Async → ∃ s', TransparentExit r sl s' := by
  intro hall
  have hrun : (coldRun [coldSlice 0x04000000]).bind (fun r =>
      (r.handle irqSlice).state?.map fun s =>
        ((s.vcpu r.vcpu).arch.tf.elr_el1, (s.vcpu r.vcpu).request_yield)) =
      some (0x40001004, true) := by decide
  obtain ⟨r, hr, hobs⟩ := Option.bind_eq_some_iff.mp hrun
  obtain ⟨s', ht⟩ := hall r irqSlice (coldRun_reachable hr) (Or.inl rfl)
  rw [ht.returned] at hobs
  obtain ⟨hpc, -⟩ := Prod.mk.inj (Option.some.inj hobs)
  rw [ht.pc] at hpc
  exact absurd hpc (by decide)

end Schism
