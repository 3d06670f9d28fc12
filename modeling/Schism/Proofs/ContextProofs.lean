import Schism.Proofs.CoherenceProofs

/-!
# The guest finds its registers as it left them

`ResumesAs` compares the machine at a vCPU's exit with the machine at its next entry, whatever other
vCPUs did in between. The frame is written only by the vCPU's own exits and by the handler on its
behalf (`avoiding_tf`), so the comparison is the save, the handler's edits and the restore put
together.
-/

namespace Schism

/-- The registers of the frame that no handler emulates. -/
def SysReg.frameOnly : SysReg → Bool
  | .SP_EL1 | .SPSR_EL2 | .TTBR0_EL1 | .TTBR1_EL1 | .TCR_EL1 | .SCTLR_EL1 | .TPIDR_EL1
  | .CNTKCTL_EL1 => true
  | _ => false

/-- `m'` is `m` after exactly the effect of the instruction that trapped with syndrome `esr`. The
physical compare value is compared as a virtual count, and only `ENABLE` and `IMASK` of the control
registers are. -/
structure ResumesAs (esr : U64) (m m' : Machine) : Prop where
  x : ∀ i, ¬ TimerReadInto esr i → m'.x i = m.x i
  pc : m'.sys .ELR_EL2 = m.sys .ELR_EL2 + if esr_ec esr = 0x16 then 0 else 4
  sys : ∀ r : SysReg, r.frameOnly = true → m'.sys r = m.sys r
  cntp_ctl : ¬ TimerWrite esr .CNTP_CTL_EL0 →
    m'.sys .CNTP_CTL_EL0 &&& 0x3 = m.sys .CNTP_CTL_EL0 &&& 0x3
  cntp_cval : ¬ TimerWrite esr .CNTP_CVAL_EL0 → ¬ TimerWrite esr .CNTP_TVAL_EL0 →
    m'.sys .CNTP_CVAL_EL0 + m'.sys .CNTVOFF_EL2 = m.sys .CNTP_CVAL_EL0 + m.sys .CNTVOFF_EL2
  cntv_ctl : ¬ TimerWrite esr .CNTV_CTL_EL0 →
    m'.sys .CNTV_CTL_EL0 &&& 0x3 = m.sys .CNTV_CTL_EL0 &&& 0x3
  cntv_cval : ¬ TimerWrite esr .CNTV_CVAL_EL0 → ¬ TimerWrite esr .CNTV_TVAL_EL0 →
    m'.sys .CNTV_CVAL_EL0 = m.sys .CNTV_CVAL_EL0

/-- The machine at a guest entry holds the contents of the guest's frame. -/
structure Loaded (m : Machine) (tf : Trapframe) : Prop where
  x : m.x = tf.regs
  elr : m.sys .ELR_EL2 = tf.elr_el1
  sp_el1 : m.sys .SP_EL1 = tf.sp_el1
  spsr : m.sys .SPSR_EL2 = tf.spsr_el1
  ttbr0 : m.sys .TTBR0_EL1 = tf.ttbr0_el1
  ttbr1 : m.sys .TTBR1_EL1 = tf.ttbr1_el1
  tcr : m.sys .TCR_EL1 = tf.tcr_el1
  sctlr : m.sys .SCTLR_EL1 = tf.sctlr_el1
  tpidr : m.sys .TPIDR_EL1 = tf.tpidr_el1
  cntkctl : m.sys .CNTKCTL_EL1 = tf.cntkctl_el1
  cntp_ctl : m.sys .CNTP_CTL_EL0 = tf.cntp_ctl_el0 &&& 0x3
  cntp_cval : m.sys .CNTP_CVAL_EL0 = tf.cntp_cval_el0 - m.sys .CNTVOFF_EL2
  cntv_ctl : m.sys .CNTV_CTL_EL0 = tf.cntv_ctl_el0 &&& 0x3
  cntv_cval : m.sys .CNTV_CVAL_EL0 = tf.cntv_cval_el0

theorem Entered.loaded {r : Running} (h : Entered r) :
    Loaded r.st.m (r.st.vcpu r.vcpu).arch.tf := by
  obtain ⟨src, s, hsrc, he⟩ := h
  have hoff := world_switch_sys s hsrc .CNTVOFF_EL2
  rw [he, world_switch_tf]
  refine ⟨world_switch_x s _ src, ?_, ?_, ?_, ?_, ?_, ?_, ?_, ?_, ?_, ?_, ?_, ?_, ?_⟩
  case refine_11 =>
    rw [hoff]
    exact world_switch_sys s hsrc .CNTP_CVAL_EL0
  all_goals exact world_switch_sys s hsrc _

/-- When the handler is called the frame holds the machine's registers. -/
theorem trapped_sync {r : Running} (hr : RunInv r) (sl : Slice) :
    TimerSync (r.trapped sl).m ((r.trapped sl).vcpu r.vcpu).arch := by
  have hoff : (r.exitMachine sl).sys .CNTVOFF_EL2 = (r.st.vcpu r.vcpu).arch.cntvoff_el2 :=
    (exitMachine_sys r sl .CNTVOFF_EL2).trans hr.cntvoff
  rw [trapped_m hr.latch, trapped_arch hr.latch, el2_vector_save_eq]
  refine ⟨Machine.timerCtl_and_three _ _ _, ?_, Machine.timerCtl_and_three _ _ _, rfl⟩
  exact congrArg ((r.exitMachine sl).sys .CNTP_CVAL_EL0 + ·) hoff

/-- The frame after a step, compared with the one that the exit saved. -/
theorem step_kept {r r' : Running} {sl : Slice} (hr : RunInv r) (h : r.step sl = some r') :
    FrameKept (r.trapEsr sl) (el2_vector_save sl.exit.code (r.exitMachine sl)
      (r.st.vcpu r.vcpu).arch.tf) (r'.st.vcpu r.vcpu).arch.tf ∧
    (r'.st.vcpu r.vcpu).arch.tf.elr_el1 =
      sl.pc + if esr_ec (r.trapEsr sl) = 0x16 then 0 else 4 := by
  obtain ⟨s', hs', htf⟩ := step_tf hr h
  have hcur := (trapped_coherent hr sl).current
  have hret := (handle_eq hr.latch).symm.trans hs'
  have hkept := el2_exception_common_kept hcur hret (trapped_sync hr sl)
  have helr := el2_exception_common_elr hcur hret
  have hpc : (r.exitMachine sl).sys .ELR_EL2 = sl.pc := exitMachine_sys r sl _
  rw [trapped_arch hr.latch] at hkept helr
  rw [htf]
  refine ⟨hkept, helr.trans ?_⟩
  rw [el2_vector_save_eq, hpc]
  split <;> simp

/-- The registers at the next entry, read off a frame that the handler kept. -/
theorem Loaded.resumesAs {esr code : U64} {m m' : Machine} {tf₀ tf : Trapframe} (hl : Loaded m' tf)
    (hk : FrameKept esr (el2_vector_save code m tf₀) tf)
    (hpc : tf.elr_el1 = m.sys .ELR_EL2 + if esr_ec esr = 0x16 then 0 else 4) :
    ResumesAs esr m m' := by
  rw [el2_vector_save_eq] at hk
  have hctl : ∀ v : U64, v &&& 0x3 &&& 0x3 = v &&& 0x3 := by
    intro v
    rw [BitVec.and_assoc, BitVec.and_self]
  refine ⟨?_, hl.elr.trans hpc, ?_, ?_, ?_, ?_, ?_⟩
  · intro i hi
    rw [hl.x]
    exact hk.regs i hi
  · intro r hr
    cases r with
    | SP_EL1 => exact hl.sp_el1.trans hk.sp_el1
    | SPSR_EL2 => exact hl.spsr.trans hk.spsr_el1
    | TTBR0_EL1 => exact hl.ttbr0.trans hk.ttbr0_el1
    | TTBR1_EL1 => exact hl.ttbr1.trans hk.ttbr1_el1
    | TCR_EL1 => exact hl.tcr.trans hk.tcr_el1
    | SCTLR_EL1 => exact hl.sctlr.trans hk.sctlr_el1
    | TPIDR_EL1 => exact hl.tpidr.trans hk.tpidr_el1
    | CNTKCTL_EL1 => exact hl.cntkctl.trans hk.cntkctl_el1
    | _ => cases hr
  · intro hw
    rw [hl.cntp_ctl, hctl, hk.cntp_ctl hw]
    exact Machine.timerCtl_and_three _ _ _
  · intro hw hw'
    rw [hl.cntp_cval, BitVec.sub_add_cancel]
    exact hk.cntp_cval hw hw'
  · intro hw
    rw [hl.cntv_ctl, hctl, hk.cntv_ctl hw]
    exact Machine.timerCtl_and_three _ _ _
  · intro hw hw'
    rw [hl.cntv_cval]
    exact hk.cntv_cval hw hw'

/-- Whatever runs in between, a vCPU's next entry loads the state of its own last exit, up to the
effect of the instruction that trapped. -/
theorem next_entry_resumes {r r' : Running} {sl : Slice} (hr : Reachable r)
    (h : NextEntry r sl r') : ResumesAs (r.trapEsr sl) (r.exitMachine sl) r'.st.m := by
  obtain ⟨hv, r₁, hstep, hpath⟩ := h
  have hi := reachable_inv hr
  have hr₁ : Reachable r₁ := .step hr hstep
  have hl := (reachable_entered (avoiding_reachable hr₁ hpath)).loaded
  rw [hv, avoiding_tf hr₁ hpath] at hl
  have hpc : (r.exitMachine sl).sys .ELR_EL2 = sl.pc := exitMachine_sys r sl _
  obtain ⟨hkept, helr⟩ := step_kept hi hstep
  exact hl.resumesAs hkept (by rw [helr, hpc])

/-- On the cold machine vCPU `0` waits, vCPU `1` reports, waits in its turn, and vCPU `0` is back. -/
theorem next_entry_resumes_cold :
    ∃ r', NextEntry coldEntry (coldSlice 0x04000000) r' ∧
      ResumesAs (coldEntry.trapEsr (coldSlice 0x04000000))
        (coldEntry.exitMachine (coldSlice 0x04000000)) r'.st.m := by
  obtain ⟨r', -, hnext⟩ := coldRound_next
  exact ⟨r', hnext, next_entry_resumes coldEntry_reachable hnext⟩

/-! ## Registers that only a yield saves -/

/-- The number of list registers the hardware implements. -/
def Machine.listRegs (m : Machine) : ℕ := (m.sys .ICH_VTR &&& 0x1f).toNat + 1

/-- The lazily saved registers of `m'` hold what they hold in `m`. -/
structure LazyContextKept (m m' : Machine) : Prop where
  q : m'.q = m.q
  fpcr : m'.sys .FPCR = m.sys .FPCR
  fpsr : m'.sys .FPSR = m.sys .FPSR
  lrs : ∀ n : Fin 16, n.val < m.listRegs → m'.sys (.ICH_LR n) = m.sys (.ICH_LR n)
  vmcr : m'.sys .ICH_VMCR = m.sys .ICH_VMCR
  apr : m'.sys .ICH_AP0R0 = m.sys .ICH_AP0R0

/-- The registers of `m` that `world_switch` restores are the ones saved in `a`. The SIMD copy is
restored only once it has been used. -/
structure SavedCurrent (a : VcpuArch) (m : Machine) : Prop where
  fp : a.fp.used = 0 ∨ m.q = a.fp.vregs ∧ m.sys .FPCR = a.fp.fpcr.setWidth 64 ∧
    m.sys .FPSR = a.fp.fpsr.setWidth 64
  lrs : ∀ n : Fin 16, n.val < vgic_detect_lr_count m → m.sys (.ICH_LR n) = a.vgic.lrs n
  vmcr : m.sys .ICH_VMCR = a.vgic.vmcr.setWidth 64
  apr : m.sys .ICH_AP0R0 = a.vgic.apr.setWidth 64

theorem vgic_detect_lr_count_le (m : Machine) : vgic_detect_lr_count m ≤ m.listRegs := by
  rw [vgic_detect_lr_count_eq, Machine.listRegs, BitVec.toNat_and, BitVec.toNat_and]
  have h : (m.sys .ICH_VTR).toNat &&& 0xf = ((m.sys .ICH_VTR).toNat &&& 0x1f) &&& 0xf := by
    rw [Nat.and_assoc]; rfl
  exact Nat.succ_le_succ (h ▸ Nat.and_le_left)

section Reentry

variable {r r' : Running} {sl : Slice}

/-- A step that stays on its vCPU is a call `world_switch(NULL, current)`. -/
theorem step_same (hr : RunInv r) (h : r.step sl = some r') (hv : r'.vcpu = r.vcpu) :
    ∃ s', r.handle sl = .returned s' ∧ r'.st = world_switch none r.vcpu (r.settle s') := by
  rcases step_cases hr.latch hr.current h with ⟨s', hs', -, ⟨-, rfl⟩ | ⟨-, -, next, target, hy, rfl⟩⟩
  · exact ⟨s', hs', rfl⟩
  · obtain ⟨-, -, -, hne⟩ := yieldTarget_some hy
    exact absurd (by rw [hr.current, ← hv]) hne

/-- The handler touches neither the saved copies nor the registers they are copies of. -/
theorem handle_keeps_lazy {s' : State} (hr : RunInv r) (hs' : r.handle sl = .returned s') :
    ((r.settle s').vcpu r.vcpu).arch.fp = (r.st.vcpu r.vcpu).arch.fp ∧
    ((r.settle s').vcpu r.vcpu).arch.vgic = (r.st.vcpu r.vcpu).arch.vgic ∧
    (r.settle s').m.q = (r.exitMachine sl).q ∧
    (∀ reg : SysReg, reg.handlerWritten = false →
      (r.settle s').m.sys reg = (r.exitMachine sl).sys reg) ∧
    vgic_lr_count (r.settle s') = vgic_detect_lr_count (r.exitMachine sl) := by
  have hf := handle_frame hr hs'
  have ha : ((r.trapped sl).vcpu r.vcpu).arch = _ := trapped_arch hr.latch
  have hm : (r.trapped sl).m = r.exitMachine sl := trapped_m hr.latch
  have hsys : ∀ reg : SysReg, reg.handlerWritten = false →
      (r.settle s').m.sys reg = (r.exitMachine sl).sys reg := by
    intro reg hreg
    rw [settle_m, ← hm]
    exact hf.sys reg hreg
  refine ⟨?_, ?_, ?_, hsys, ?_⟩
  · rw [settle_arch, hf.fp, ha]
  · rw [settle_arch, hf.vgic, ha]
  · rw [settle_m, ← hm]
    exact hf.q
  · have hlr : LrCacheOk (r.settle s') := by
      rw [LrCacheOk, settle_lr_cached, settle_m]
      exact handle_lr_cache hr hs'
    rw [vgic_lr_count_eq hlr, vgic_detect_lr_count_eq, vgic_detect_lr_count_eq, hsys _ rfl]

/-- A re-entry without a yield keeps the lazily saved registers exactly when the copies it restores
are still current. -/
theorem reentry_keeps_lazy_iff (hr : Reachable r) (h : r.step sl = some r') (hv : r'.vcpu = r.vcpu) :
    LazyContextKept (r.exitMachine sl) r'.st.m ↔
      SavedCurrent (r.st.vcpu r.vcpu).arch (r.exitMachine sl) := by
  have hi := reachable_inv hr
  obtain ⟨s', hs', he⟩ := step_same hi h hv
  obtain ⟨hfp, hvgic, hq, hsys, hlr⟩ := handle_keeps_lazy hi hs'
  have hne : none ≠ some r.vcpu := by simp
  have hle := vgic_detect_lr_count_le (r.exitMachine sl)
  have kq := world_switch_q (r.settle s') hne
  have kfpcr := world_switch_sys (r.settle s') hne .FPCR
  have kfpsr := world_switch_sys (r.settle s') hne .FPSR
  have klr := fun n => world_switch_sys (r.settle s') hne (.ICH_LR n)
  have kvmcr := world_switch_sys (r.settle s') hne .ICH_VMCR
  have kapr := world_switch_sys (r.settle s') hne .ICH_AP0R0
  have hlrs : ∀ n, (r.settle s').m.sys (.ICH_LR n) = (r.exitMachine sl).sys (.ICH_LR n) :=
    fun n => hsys _ rfl
  simp only [← he, hfp, hvgic, hq, hlr, hlrs, hsys .FPCR rfl, hsys .FPSR rfl]
    at kq kfpcr kfpsr klr kvmcr kapr
  constructor
  · intro hk
    refine ⟨?_, ?_, hk.vmcr.symm.trans kvmcr, hk.apr.symm.trans kapr⟩
    · by_cases hu : (r.st.vcpu r.vcpu).arch.fp.used = 0
      · exact Or.inl hu
      · rw [if_neg hu] at kq kfpcr kfpsr
        exact Or.inr ⟨hk.q.symm.trans kq, hk.fpcr.symm.trans kfpcr, hk.fpsr.symm.trans kfpsr⟩
    · intro n hn
      have := klr n
      rw [if_pos hn] at this
      exact (hk.lrs n (by omega)).symm.trans this
  · intro hc
    have hfile : r'.st.m.q = (r.exitMachine sl).q ∧
        r'.st.m.sys .FPCR = (r.exitMachine sl).sys .FPCR ∧
        r'.st.m.sys .FPSR = (r.exitMachine sl).sys .FPSR := by
      by_cases hu : (r.st.vcpu r.vcpu).arch.fp.used = 0
      · rw [if_pos hu] at kq kfpcr kfpsr
        exact ⟨kq, kfpcr, kfpsr⟩
      · rw [if_neg hu] at kq kfpcr kfpsr
        obtain ⟨hq', hfpcr, hfpsr⟩ := hc.fp.resolve_left hu
        exact ⟨kq.trans hq'.symm, kfpcr.trans hfpcr.symm, kfpsr.trans hfpsr.symm⟩
    refine ⟨hfile.1, hfile.2.1, hfile.2.2, ?_, kvmcr.trans hc.vmcr.symm,
      kapr.trans hc.apr.symm⟩
    intro n _
    rw [klr n]
    split
    · rename_i hn
      exact (hc.lrs n hn).symm
    · rfl

/-- A report at the first entry of the cold machine, where nothing has been saved yet. -/
theorem reentry_keeps_lazy_cold :
    ∃ r', coldEntry.step (coldSlice 0x58000060) = some r' ∧
      (LazyContextKept (coldEntry.exitMachine (coldSlice 0x58000060)) r'.st.m ↔
        SavedCurrent (coldEntry.st.vcpu 0).arch (coldEntry.exitMachine (coldSlice 0x58000060))) := by
  obtain ⟨r', h, hv⟩ : ∃ r', coldEntry.step (coldSlice 0x58000060) = some r' ∧ r'.vcpu = 0 :=
    Option.map_eq_some_iff.mp (by decide)
  exact ⟨r', h, reentry_keeps_lazy_iff coldEntry_reachable h hv⟩

/-- A slice that leaves `7` in `q0` and reports. -/
def vectorSlice : Slice :=
  { coldSlice 0x58000060 with q := Function.update (fun _ => (0, 0)) 0 (7, 0) }

/-- After one round of yields vCPU `0` loses `q0` to the copy saved by the yield. -/
theorem reentry_loses_vector :
    ¬ ∀ (r r' : Running) (sl : Slice), Reachable r → r.step sl = some r' → r'.vcpu = r.vcpu →
      LazyContextKept (r.exitMachine sl) r'.st.m := by
  intro hall
  have hrun : (coldRun coldRound).bind (fun r =>
      (r.step vectorSlice).map fun r' =>
        (r'.vcpu == r.vcpu, (r.exitMachine vectorSlice).q 0, r'.st.m.q 0)) =
      some (true, (7, 0), (0, 0)) := by decide
  obtain ⟨r, hr, hrun⟩ := Option.bind_eq_some_iff.mp hrun
  obtain ⟨r', hstep, hobs⟩ := Option.map_eq_some_iff.mp hrun
  simp only [Prod.mk.injEq, beq_iff_eq] at hobs
  obtain ⟨hv, hq, hq'⟩ := hobs
  have hkept := hall r r' vectorSlice (coldRun_reachable hr) hstep hv
  rw [hkept.q, hq] at hq'
  exact absurd hq' (by decide)

end Reentry

end Schism
