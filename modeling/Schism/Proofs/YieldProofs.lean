import Schism.Proofs.ContextProofs

/-!
# Registers that a yield saves and the next entry restores

The SIMD file and the interrupt controller's registers are copied when a yield leaves a vCPU, and
loaded at every entry. While other vCPUs run nobody touches the copies, so the vCPU finds them again.
-/

namespace Schism

section Copies

variable {r r' : Running} {sl : Slice} {s' : State}

/-! ## While other vCPUs run -/

/-- A step changes the copies of no vCPU but the one that trapped. -/
theorem step_copies_of_ne (hr : RunInv r) (h : r.step sl = some r') {p : VcpuPtr} (hp : p ≠ r.vcpu) :
    (r'.st.vcpu p).arch.fp = (r.st.vcpu p).arch.fp ∧
      (r'.st.vcpu p).arch.vgic = (r.st.vcpu p).arch.vgic := by
  have keep : ∀ (src : Option VcpuPtr) (target : VcpuPtr) (s : State), src ≠ some p →
      (s.vcpu p).arch = (r.st.vcpu p).arch →
      ((world_switch src target s).vcpu p).arch.fp = (r.st.vcpu p).arch.fp ∧
        ((world_switch src target s).vcpu p).arch.vgic = (r.st.vcpu p).arch.vgic := by
    intro src target s hsrc hs
    rw [world_switch_arch_of_src_ne s hsrc, ← hs]
    split <;> exact ⟨rfl, rfl⟩
  obtain ⟨s', hs', hf, hcase⟩ := step_cases hr.latch hr.current h
  have harch : (s'.vcpu p).arch = (r.st.vcpu p).arch := by
    rw [hf.others p hp, trapped_vcpu_of_ne hr.latch hp]
  rcases hcase with ⟨-, rfl⟩ | ⟨-, -, next, target, -, rfl⟩
  · exact keep none r.vcpu (r.settle s') (by simp) ((settle_arch r s' p).trans harch)
  · exact keep (some r.vcpu) target (r.yieldState s' next target)
      (fun he => hp (Option.some.inj he).symm) ((yieldState_arch r s' next target p).trans harch)

theorem step_vtr (hr : RunInv r) (h : r.step sl = some r') :
    r'.st.m.sys .ICH_VTR = r.st.m.sys .ICH_VTR := by
  obtain ⟨s', hs', hf, hcase⟩ := step_cases hr.latch hr.current h
  have hvtr : s'.m.sys .ICH_VTR = r.st.m.sys .ICH_VTR := by
    rw [hf.sys _ rfl, trapped_m hr.latch]
    exact exitMachine_sys r sl .ICH_VTR
  rcases hcase with ⟨-, rfl⟩ | ⟨-, -, next, target, hy, rfl⟩
  · have hsrc : none ≠ some r.vcpu := by simp
    have hk := world_switch_sys (r.settle s') hsrc .ICH_VTR
    rw [settle_m] at hk
    exact hk.trans hvtr
  · obtain ⟨-, -, -, hne⟩ := yieldTarget_some hy
    have hsrc : some r.vcpu ≠ some target := fun he => hne (by rw [hr.current, he])
    exact (world_switch_sys (r.yieldState s' next target) hsrc .ICH_VTR).trans hvtr

/-- While other vCPUs run the copies of `v` stay, and the hardware keeps its list registers. -/
theorem avoiding_copies {v : VcpuPtr} (hr : Reachable r)
    (h : Relation.ReflTransGen (StepAvoiding v) r r') :
    (r'.st.vcpu v).arch.fp = (r.st.vcpu v).arch.fp ∧
      (r'.st.vcpu v).arch.vgic = (r.st.vcpu v).arch.vgic ∧
      r'.st.m.sys .ICH_VTR = r.st.m.sys .ICH_VTR := by
  induction h with
  | refl => exact ⟨rfl, rfl, rfl⟩
  | tail hpath hstep ih =>
    obtain ⟨hv, sl, hs⟩ := hstep
    have hi := reachable_inv (avoiding_reachable hr hpath)
    obtain ⟨hfp, hvgic⟩ := step_copies_of_ne hi hs hv.symm
    exact ⟨hfp.trans ih.1, hvgic.trans ih.2.1, (step_vtr hi hs).trans ih.2.2⟩

/-! ## At an entry -/

/-- The machine holds the copies of `a`; the SIMD file only if a copy was made. -/
structure CopiesLoaded (m : Machine) (a : VcpuArch) : Prop where
  q : a.fp.used ≠ 0 → m.q = a.fp.vregs
  fpcr : a.fp.used ≠ 0 → m.sys .FPCR = a.fp.fpcr.setWidth 64
  fpsr : a.fp.used ≠ 0 → m.sys .FPSR = a.fp.fpsr.setWidth 64
  lrs : ∀ n : Fin 16, n.val < vgic_detect_lr_count m → m.sys (.ICH_LR n) = a.vgic.lrs n
  vmcr : m.sys .ICH_VMCR = a.vgic.vmcr.setWidth 64
  apr : m.sys .ICH_AP0R0 = a.vgic.apr.setWidth 64

theorem reachable_copiesLoaded (hr : Reachable r) :
    CopiesLoaded r.st.m (r.st.vcpu r.vcpu).arch := by
  obtain ⟨src, s, hsrc, he⟩ := reachable_entered hr
  have hcount : vgic_detect_lr_count r.st.m = vgic_lr_count s := by
    rw [← (reachable_inv hr).lr_count, he, world_switch_vgic_lr_cached]
  rw [he] at hcount ⊢
  rw [world_switch_arch_of_src_ne s hsrc, if_pos rfl]
  refine ⟨?_, ?_, ?_, ?_, ?_, ?_⟩
  · intro hu
    exact (world_switch_q s hsrc).trans (if_neg hu)
  · intro hu
    exact (world_switch_sys s hsrc .FPCR).trans (if_neg hu)
  · intro hu
    exact (world_switch_sys s hsrc .FPSR).trans (if_neg hu)
  · intro n hn
    rw [hcount] at hn
    exact (world_switch_sys s hsrc (.ICH_LR n)).trans (if_pos hn)
  · exact world_switch_sys s hsrc .ICH_VMCR
  · exact world_switch_sys s hsrc .ICH_AP0R0

/-! ## The round trip -/

/-- The registers that a yield saves hold in `m'` what they hold in `m`. The control and status
registers are saved as 32-bit values. -/
structure YieldKept (m m' : Machine) : Prop where
  q : m'.q = m.q
  fpcr : (m'.sys .FPCR).setWidth 32 = (m.sys .FPCR).setWidth 32
  fpsr : (m'.sys .FPSR).setWidth 32 = (m.sys .FPSR).setWidth 32
  lrs : ∀ n : Fin 16, n.val < vgic_detect_lr_count m → m'.sys (.ICH_LR n) = m.sys (.ICH_LR n)
  vmcr : (m'.sys .ICH_VMCR).setWidth 32 = (m.sys .ICH_VMCR).setWidth 32
  apr : (m'.sys .ICH_AP0R0).setWidth 32 = (m.sys .ICH_AP0R0).setWidth 32

/-- The copies that a yield makes are those of the machine on which the handler returned. -/
theorem yield_copies (hr : RunInv r) (h : r.step sl = some r') (hy : r.Yields sl)
    (hs' : r.handle sl = .returned s') :
    (r'.st.vcpu r.vcpu).arch.fp = { used := 1
                                    fpcr := (s'.m.sys .FPCR).setWidth 32
                                    fpsr := (s'.m.sys .FPSR).setWidth 32
                                    vregs := s'.m.q } ∧
      (∀ n : Fin 16, n.val < vgic_detect_lr_count s'.m →
        (r'.st.vcpu r.vcpu).arch.vgic.lrs n = s'.m.sys (.ICH_LR n)) ∧
      (r'.st.vcpu r.vcpu).arch.vgic.vmcr = (s'.m.sys .ICH_VMCR).setWidth 32 ∧
      (r'.st.vcpu r.vcpu).arch.vgic.apr = (s'.m.sys .ICH_AP0R0).setWidth 32 ∧
      r'.st.m.sys .ICH_VTR = s'.m.sys .ICH_VTR := by
  rcases step_yields hr h with ⟨s'', hs'', ⟨hno, -⟩ | ⟨-, next, target, ht, rfl⟩⟩
  · exact absurd hy hno
  have hss : s'' = s' := Outcome.returned.inj (hs''.symm.trans hs')
  subst hss
  obtain ⟨-, -, -, hne⟩ := yieldTarget_some ht
  have hp : r.vcpu ≠ target := fun he => hne (by rw [hr.current, he])
  have hcache : LrCacheOk s'' := handle_lr_cache hr hs'
  have hlr : LrCacheOk (r.yieldState s'' next target) := hcache
  have hcount : vgic_lr_count (r.yieldState s'' next target) = vgic_detect_lr_count s''.m :=
    vgic_lr_count_eq hlr
  rw [world_switch_arch_src _ hp]
  refine ⟨rfl, ?_, rfl, rfl, ?_⟩
  · intro n hn
    exact if_pos (by rw [hcount]; exact hn)
  · exact world_switch_sys _ (fun he => hp (Option.some.inj he)) .ICH_VTR

theorem setWidth_setWidth_32 (v : U32) : (v.setWidth 64).setWidth 32 = v := by
  simp

/-- Whatever the other vCPUs do with these registers, a vCPU that a yield switched out finds them at
its next entry as they were when it was switched out. -/
theorem yield_cycle_kept (hr : Reachable r) (hy : r.Yields sl) (hs' : r.handle sl = .returned s')
    (h : NextEntry r sl r') : YieldKept s'.m r'.st.m := by
  obtain ⟨hv, r₁, hstep, hpath⟩ := h
  have hr₁ : Reachable r₁ := .step hr hstep
  obtain ⟨hfp, hlrs, hvmcr, hapr, hvtr⟩ := yield_copies (reachable_inv hr) hstep hy hs'
  obtain ⟨kfp, kvgic, kvtr⟩ := avoiding_copies hr₁ hpath
  have hl := reachable_copiesLoaded (avoiding_reachable hr₁ hpath)
  have hcount : vgic_detect_lr_count r'.st.m = vgic_detect_lr_count s'.m := by
    rw [vgic_detect_lr_count_eq, vgic_detect_lr_count_eq, kvtr, hvtr]
  rw [hv] at hl
  have hused : (r'.st.vcpu r.vcpu).arch.fp.used ≠ 0 := by
    rw [kfp, hfp]
    exact (by decide : (1 : U8) ≠ 0)
  refine ⟨?_, ?_, ?_, ?_, ?_, ?_⟩
  · rw [hl.q hused, kfp, hfp]
  · rw [hl.fpcr hused, kfp, hfp, setWidth_setWidth_32]
  · rw [hl.fpsr hused, kfp, hfp, setWidth_setWidth_32]
  · intro n hn
    rw [hl.lrs n (by rw [hcount]; exact hn), kvgic, hlrs n hn]
  · rw [hl.vmcr, kvgic, hvmcr, setWidth_setWidth_32]
  · rw [hl.apr, kvgic, hapr, setWidth_setWidth_32]

/-- On the cold machine vCPU `0` yields, and vCPU `1` gives the processor back. -/
theorem yield_cycle_kept_cold :
    ∃ s' r', coldEntry.handle (coldSlice 0x04000000) = .returned s' ∧
      NextEntry coldEntry (coldSlice 0x04000000) r' ∧ YieldKept s'.m r'.st.m := by
  obtain ⟨r', -, hnext⟩ := coldRound_next
  obtain ⟨-, r₁, hstep, -⟩ := id hnext
  obtain ⟨s', hs', -⟩ := step_yields (reachable_inv coldEntry_reachable) hstep
  exact ⟨s', r', hs', hnext, yield_cycle_kept coldEntry_reachable (by decide) hs' hnext⟩

end Copies

end Schism
