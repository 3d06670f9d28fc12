import Schism.Proofs.TaskReportProofs

/-!
# Which traps EL2 survives

After a trap EL2 either hangs or enters a guest. Which of the two happens depends on the syndrome that the
handler reads and, for a report, on the memory of the report.
-/

namespace Schism

/-- The string at `a` ends at an address that can be read, and so do all bytes before its end. -/
def StringReadable (readable : U64 → Prop) (mem : U64 → U8) (a : U64) : Prop :=
  ∃ k, (∀ i ≤ k, readable (a + BitVec.ofNat 64 i)) ∧ mem (a + BitVec.ofNat 64 k) = 0

/-- The traps after which EL2 goes on: `esr` is what the handler finds in `ESR_EL2`, `x1` the register of the
guest. -/
inductive Survivable (readable : U64 → Prop) (mem : U64 → U8) (esr x1 : U64) : Prop where
  | wait (hec : esr_ec esr = 0x01)
  | no_report (hec : esr_ec esr = 0x16) (himm : esr &&& 0xffff = 0x60) (hnull : x1 = 0)
  | report (hec : esr_ec esr = 0x16) (himm : esr &&& 0xffff = 0x60)
      (hdesc : StringReadable readable mem (x1 + 8))
      (hwords : ∀ j < 48, readable (x1 + 40 + BitVec.ofNat 64 j))
  | time_override (hec : esr_ec esr = 0x16) (himm : esr &&& 0xffff = 0x61)
  | timer (hec : esr_ec esr = 0x18) (reg : TimerReg) (hreg : timerCase (esr_sys64_sysreg esr) = some reg)

section Handler

variable {s : State} {p : VcpuPtr} {esr elr spsr far code : U64}

/-- What the handler survives, with the report as a whole. -/
theorem handler_returns_iff (hp : s.sched.current = some p) :
    (∃ s', el2_exception_common esr elr spsr far code s = .returned s') ↔
      Survivable (fun a => s.m.el2Readable a = true) s.m.mem esr ((s.vcpu p).arch.tf.regs 1) := by
  have hreport := task_report_output_isSome_iff s.m (s.vcpu p).vcpu_id ((s.vcpu p).arch.tf.regs 1)
  constructor
  · rintro ⟨s', h⟩
    have hcases := el2_exception_common_cases hp h
    rcases hcases with ⟨hec, -⟩ | ⟨hec, himm, out, -⟩ | ⟨hec, himm, -⟩ | ⟨hec, reg, hreg, -⟩
    · exact .wait hec
    · by_cases hnull : (s.vcpu p).arch.tf.regs 1 = 0
      · exact .no_report hec himm hnull
      · -- the handler has read the report
        have hne : ¬ esr_ec esr = 0x01 := by
          rw [hec]
          decide
        unfold el2_exception_common handle_guest_hvc handle_guest_task_report at h
        simp only [if_neg hne, if_pos hec, if_pos himm, hp, if_neg hnull] at h
        cases hout : task_report_output s.m (s.vcpu p).vcpu_id ((s.vcpu p).arch.tf.regs 1) with
        | none => simp only [hout, reduceCtorEq] at h
        | some out =>
          rw [hout] at hreport
          obtain ⟨hdesc, hwords⟩ := hreport.mp rfl
          exact .report hec himm hdesc hwords
    · exact .time_override hec himm
    · exact .timer hec reg hreg
  · have hwait (hec : esr_ec esr = 0x16) : ¬ esr_ec esr = 0x01 := by
      rw [hec]
      decide
    rintro (hec | ⟨hec, himm, hnull⟩ | ⟨hec, himm, hdesc, hwords⟩ | ⟨hec, himm⟩ | ⟨hec, reg, hreg⟩)
    · exact ⟨_, if_pos hec⟩
    · refine ⟨s, ?_⟩
      simp only [el2_exception_common, handle_guest_hvc, handle_guest_task_report, if_neg (hwait hec),
        if_pos hec, if_pos himm, hp, if_pos hnull]
    · obtain ⟨out, hout⟩ := Option.isSome_iff_exists.mp (hreport.mpr ⟨hdesc, hwords⟩)
      by_cases hnull : (s.vcpu p).arch.tf.regs 1 = 0
      · refine ⟨s, ?_⟩
        simp only [el2_exception_common, handle_guest_hvc, handle_guest_task_report, if_neg (hwait hec),
          if_pos hec, if_pos himm, hp, if_pos hnull]
      · refine ⟨s.print out, ?_⟩
        simp only [el2_exception_common, handle_guest_hvc, handle_guest_task_report, if_neg (hwait hec),
          if_pos hec, if_pos himm, hp, if_neg hnull, hout]
    · have h60 : ¬ esr &&& 0xffff = 0x60 := by
        rw [himm]
        decide
      refine ⟨overrideReturn p s, ?_⟩
      simp only [el2_exception_common, handle_guest_hvc, handle_guest_time_override_eq hp, if_neg (hwait hec),
        if_pos hec, if_neg h60, if_pos himm]
    · have h01 : ¬ esr_ec esr = 0x01 := by
        rw [hec]
        decide
      have h16 : ¬ esr_ec esr = 0x16 := by
        rw [hec]
        decide
      refine ⟨timerReturn p reg esr elr s, ?_⟩
      simp only [el2_exception_common, handle_timer_sysreg, handle_timer_sysreg_result, if_neg h01,
        if_neg h16, if_pos hec, hp, hreg]
      rfl

end Handler

section Step

variable {r : Running} {s' : State}

/-- When the handler returns, some guest is entered. -/
theorem resume_isSome (hcur : s'.sched.current = some r.vcpu) : (r.resume s').isSome := by
  have hhead (s : State) (h : s.sched.current = some r.vcpu) : (loop_head s).isSome := by
    simp only [loop_head, h, Option.isSome_some]
  have hreturn : (world_switch_return s').sched.current = some r.vcpu := hcur
  unfold Running.resume
  cases r.site with
  | yield => exact hhead _ hreturn
  | loop =>
    dsimp only [loop_tail]
    split
    · cases vcpu_scheduler_yield ((world_switch_return s').setRequestYield r.vcpu false) with
      | none => exact hhead _ hreturn
      | some r' => rfl
    · exact hhead _ hreturn

/-- EL2 goes on after a slice exactly when its trap can be survived. -/
theorem step_isSome_iff (hr : RunInv r) (sl : Slice) : (r.step sl).isSome ↔
    Survivable (fun a => r.st.m.el2Readable a = true) sl.mem (r.trapEsr sl) (sl.x 1) := by
  have hcur : (r.trapped sl).sched.current = some r.vcpu := by
    rw [trapped_sched hr.latch, hr.current]
  have hreturns : (∃ s', el2_exception_common (r.trapEsr sl) sl.pc sl.pstate ((r.exitMachine sl).sys .FAR_EL2)
      sl.exit.code (r.trapped sl) = .returned s') ↔ _ := handler_returns_iff hcur
  rw [← handle_eq hr.latch, trapped_arch hr.latch, el2_vector_save_eq, exitMachine_x, trapped_m hr.latch,
    exitMachine_mem, exitMachine_el2Readable] at hreturns
  rw [← hreturns]
  constructor
  · intro h
    obtain ⟨r', hr'⟩ := Option.isSome_iff_exists.mp h
    obtain ⟨s', hs', -⟩ := step_eq_some hr'
    exact ⟨s', hs'⟩
  · rintro ⟨s', hs'⟩
    rw [Running.step, hs']
    exact resume_isSome ((handle_frame hr hs').sched.trans (trapped_sched hr.latch) ▸ hr.current)

end Step

end Schism
