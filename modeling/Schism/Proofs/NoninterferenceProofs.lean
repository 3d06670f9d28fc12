import Schism.Proofs.AgreeProofs
import Schism.Proofs.YieldProofs

/-!
# Two runs that differ in what one vCPU leaves behind

`TwinRuns A` are pairs of runs with the same trap schedule in which only the slices of `A` differ.
EL2 keeps everything that the other vCPUs depend on the same in both (`Twins`), so what such a vCPU
finds at its entries can only differ in the registers that the switch does not load.
-/

namespace Schism

/-! ## Twin states -/

/-- The registers that no switch loads and no guest writes. -/
def SysReg.common : SysReg → Bool
  | .ESR_EL2 | .FAR_EL2 | .HPFAR_EL2 | .VTCR_EL2 | .MAIR_EL2 | .HCR_EL2 | .CNTHCTL_EL2
  | .ID_AA64MMFR1_EL1 | .ICH_VTR => true
  | _ => false

/-- The registers that every switch loads. -/
def SysReg.loaded : SysReg → Bool
  | .SP_EL1 | .ELR_EL2 | .SPSR_EL2 | .TTBR0_EL1 | .TTBR1_EL1 | .TCR_EL1 | .SCTLR_EL1 | .TPIDR_EL1
  | .CNTKCTL_EL1 | .CNTP_CVAL_EL0 | .CNTP_CTL_EL0 | .CNTV_CVAL_EL0 | .CNTV_CTL_EL0 | .VTTBR_EL2
  | .CNTVOFF_EL2 | .VBAR_EL1 | .ICH_VMCR | .ICH_AP0R0 => true
  | _ => false

theorem world_switch_common (s : State) {src : Option VcpuPtr} {target : VcpuPtr}
    (hsrc : src ≠ some target) {r : SysReg} (hr : r.common = true) :
    (world_switch src target s).m.sys r = s.m.sys r := by
  cases r with
  | ESR_EL2 | FAR_EL2 | HPFAR_EL2 | VTCR_EL2 | MAIR_EL2 | HCR_EL2 | CNTHCTL_EL2 | ID_AA64MMFR1_EL1
  | ICH_VTR => exact world_switch_sys s hsrc _
  | _ => cases hr

/-- The two states differ at most in what concerns `A`. -/
structure SameFor (A : VcpuPtr) (s₁ s₂ : State) : Prop where
  sched : s₁.sched = s₂.sched
  lr_cached : s₁.vgic_lr_cached = s₂.vgic_lr_cached
  vectors : s₁.guest_el1_vectors = s₂.guest_el1_vectors
  others : ∀ p, p ≠ A → (s₁.vcpu p).arch = (s₂.vcpu p).arch
  requests : ∀ p, (s₁.vcpu p).request_yield = (s₂.vcpu p).request_yield
  clock : s₁.m.clock = s₂.m.clock
  instant : s₁.m.instant = s₂.m.instant
  common : ∀ r : SysReg, r.common = true → s₁.m.sys r = s₂.m.sys r

namespace SameFor

variable {A : VcpuPtr} {s₁ s₂ : State}

theorem refl (A : VcpuPtr) (s : State) : SameFor A s s :=
  ⟨rfl, rfl, rfl, fun _ _ => rfl, fun _ => rfl, rfl, rfl, fun _ _ => rfl⟩

theorem lr_count (h : SameFor A s₁ s₂) : vgic_lr_count s₁ = vgic_lr_count s₂ :=
  vgic_lr_count_congr h.lr_cached (h.common _ rfl)

/-- The physical count that the entry reads. -/
theorem entry_cntpct (h : SameFor A s₁ s₂) (src : Option VcpuPtr) (target : VcpuPtr) :
    (world_switch src target s₁).m.cntpct = (world_switch src target s₂).m.cntpct := by
  rw [world_switch_cntpct, world_switch_cntpct, entryCount, entryCount, h.clock, h.instant]

/-- A switch between twin states leads to twin states, provided that a vCPU other than `A` is left with
the same registers. -/
theorem switch (h : SameFor A s₁ s₂) {src : Option VcpuPtr} {target : VcpuPtr}
    (hsrc : src ≠ some target)
    (hleft : ∀ p, src = some p → p ≠ A → s₁.m.sys = s₂.m.sys ∧ s₁.m.q = s₂.m.q) :
    SameFor A (world_switch src target s₁) (world_switch src target s₂) where
  sched := by rw [world_switch_sched, world_switch_sched, h.sched]
  lr_cached := by rw [world_switch_vgic_lr_cached, world_switch_vgic_lr_cached, h.lr_count]
  vectors := by rw [world_switch_guest_el1_vectors, world_switch_guest_el1_vectors, h.vectors]
  others p hp := by
    by_cases hs : src = some p
    · subst hs
      obtain ⟨hsys, hq⟩ := hleft p rfl hp
      have hpt : p ≠ target := fun he => hsrc (by rw [he])
      have hct : s₁.m.elapse.cntvct = s₂.m.elapse.cntvct := by
        simp only [Machine.cntvct, Machine.cntpct, Machine.elapse_clock, Machine.elapse_instant,
          Machine.elapse_sys, h.clock, h.instant, hsys]
      rw [world_switch_arch_src s₁ hpt, world_switch_arch_src s₂ hpt, h.others p hp, h.lr_count, hct,
        hsys, hq]
    · rw [world_switch_arch_of_src_ne s₁ hs, world_switch_arch_of_src_ne s₂ hs, h.others p hp]
      by_cases ht : p = target
      · subst ht
        have h₁ := world_switch_sys s₁ hsrc .CNTVOFF_EL2
        have h₂ := world_switch_sys s₂ hsrc .CNTVOFF_EL2
        rw [h.others p hp, h.entry_cntpct] at h₁
        rw [if_pos rfl, if_pos rfl, h₁, h₂]
      · rw [if_neg ht, if_neg ht]
  requests p := by rw [world_switch_request_yield, world_switch_request_yield, h.requests]
  clock := by rw [world_switch_clock, world_switch_clock, h.clock]
  instant := by rw [world_switch_instant, world_switch_instant, h.instant]
  common r hr := by
    rw [world_switch_common s₁ hsrc hr, world_switch_common s₂ hsrc hr, h.common r hr]

/-- A vCPU other than `A` finds in both runs the same value of every register that its entry loads. -/
theorem entry_loaded (h : SameFor A s₁ s₂) {src : Option VcpuPtr} {target : VcpuPtr}
    (hsrc : src ≠ some target) (ht : target ≠ A) {r : SysReg} (hr : r.loaded = true) :
    (world_switch src target s₁).m.sys r = (world_switch src target s₂).m.sys r := by
  have h₁ := world_switch_sys s₁ hsrc r
  have h₂ := world_switch_sys s₂ hsrc r
  rw [h.others target ht, h.entry_cntpct, h.vectors] at h₁
  rw [h₁, h₂]
  cases r <;> first | rfl | cases hr

theorem setRequestYield (h : SameFor A s₁ s₂) (p : VcpuPtr) (b : Bool) :
    SameFor A (s₁.setRequestYield p b) (s₂.setRequestYield p b) := by
  refine { h with others := ?_, requests := ?_ }
  · intro q hq
    rw [State.setRequestYield_arch, State.setRequestYield_arch, h.others q hq]
  · intro q
    by_cases hq : q = p
    · subst hq
      rw [State.setRequestYield_self, State.setRequestYield_self]
    · rw [State.setRequestYield_vcpu_of_ne _ _ hq, State.setRequestYield_vcpu_of_ne _ _ hq,
        h.requests]

theorem world_switch_return (h : SameFor A s₁ s₂) :
    SameFor A (world_switch_return s₁) (world_switch_return s₂) :=
  { h with }

variable {r₁ r₂ : Running}

theorem settle (h : SameFor A s₁ s₂) (hv : r₁.vcpu = r₂.vcpu) (hs : r₁.site = r₂.site) :
    SameFor A (r₁.settle s₁) (r₂.settle s₂) := by
  unfold Running.settle
  rw [← hs, ← hv]
  cases r₁.site with
  | loop => exact h.world_switch_return.setRequestYield _ _
  | yield => exact h.world_switch_return

theorem yieldState (h : SameFor A s₁ s₂) (hv : r₁.vcpu = r₂.vcpu) (next : ℕ) (target : VcpuPtr) :
    SameFor A (r₁.yieldState s₁ next target) (r₂.yieldState s₂ next target) := by
  have hy := h.world_switch_return.setRequestYield r₁.vcpu false
  unfold Running.yieldState
  rw [← hv]
  exact { hy with sched := by simp only [hy.sched] }

end SameFor

/-! ## Twin runs -/

/-- One step of two runs with the same trap schedule. While a vCPU other than `A` runs, its slice is the
same in both; a slice of `A` ends with the same exception in both. A slice is what the registers finally
hold, so a vCPU that leaves behind what it has found there, different in the two runs, makes no such step. -/
structure TwinStep (A : VcpuPtr) (r₁ r₂ : Running) (sl₁ sl₂ : Slice) (r₁' r₂' : Running) : Prop where
  slice : r₁.vcpu ≠ A → sl₁ = sl₂
  exit : sl₁.exit = sl₂.exit
  served : ∃ a, ServedStep r₁ sl₁ a r₁' ∧ ServedStep r₂ sl₂ a r₂'

/-- Two runs that start in the same state and differ only in what the slices of `A` leave behind. Each
of their steps meets the condition `C`. The other vCPUs leave the same final contents in both runs, so a
vCPU that passes on unchanged what has leaked to it is not among them. -/
inductive TwinRuns (A : VcpuPtr) (C : Running → Slice → Slice → Running → Prop) :
    Running → Running → Prop where
  | start {s : State} {ops : List SchedOp} {v : Option VcpuPtr} {r : Running} (hs : Booted s)
      (h : vcpu_run v (s.schedule ops) = some r) : TwinRuns A C r r
  | step {r₁ r₂ r₁' r₂' : Running} {sl₁ sl₂ : Slice} (h : TwinRuns A C r₁ r₂)
      (ht : TwinStep A r₁ r₂ sl₁ sl₂ r₁' r₂') (hC : C r₁ sl₁ sl₂ r₁') : TwinRuns A C r₁' r₂'

/-- What holds between two runs whenever a guest is entered. -/
structure Twins (A : VcpuPtr) (r₁ r₂ : Running) : Prop where
  inv₁ : RunInv r₁
  inv₂ : RunInv r₂
  entered₁ : Entered r₁
  entered₂ : Entered r₂
  vcpu : r₁.vcpu = r₂.vcpu
  site : r₁.site = r₂.site
  same : SameFor A r₁.st r₂.st

namespace Twins

variable {A : VcpuPtr} {r₁ r₂ : Running} {sl₁ sl₂ : Slice} {a : Option Access} {s₁ s₂ : State}

theorem exit_common (h : Twins A r₁ r₂) (hx : sl₁.exit = sl₂.exit) {r : SysReg}
    (hr : r.common = true) : (r₁.exitMachine sl₁).sys r = (r₂.exitMachine sl₂).sys r := by
  have hc := h.same.common r hr
  have hesr := h.same.common .ESR_EL2 rfl
  have hfar := h.same.common .FAR_EL2 rfl
  rw [exitMachine_sys, exitMachine_sys, hx]
  cases r with
  | ESR_EL2 => simp only [hesr]
  | FAR_EL2 => simp only [hfar]
  | HPFAR_EL2 | VTCR_EL2 | MAIR_EL2 | HCR_EL2 | CNTHCTL_EL2 | ID_AA64MMFR1_EL1 | ICH_VTR => exact hc
  | _ => cases hr

theorem trapEsr (h : Twins A r₁ r₂) (hx : sl₁.exit = sl₂.exit) : r₁.trapEsr sl₁ = r₂.trapEsr sl₂ :=
  h.exit_common hx rfl

/-- A vCPU other than `A` runs with the same values in the registers that a guest cannot write. -/
theorem entry_sys (h : Twins A r₁ r₂) (hA : r₁.vcpu ≠ A) {r : SysReg}
    (hr : r.guestWritable = false) : r₁.st.m.sys r = r₂.st.m.sys r := by
  have ha : (r₁.st.vcpu r₁.vcpu).arch = (r₂.st.vcpu r₂.vcpu).arch := by
    rw [h.same.others _ hA, h.vcpu]
  have hoff : r₁.st.m.sys .CNTVOFF_EL2 = r₂.st.m.sys .CNTVOFF_EL2 := by
    rw [h.inv₁.cntvoff, h.inv₂.cntvoff, ha]
  have l₁ := h.entered₁.loaded
  have l₂ := h.entered₂.loaded
  rw [ha] at l₁
  cases r with
  | CNTVOFF_EL2 => exact hoff
  | VTTBR_EL2 => rw [h.inv₁.vttbr, h.inv₂.vttbr, ha]
  | CNTP_CTL_EL0 => rw [l₁.cntp_ctl, l₂.cntp_ctl]
  | CNTP_CVAL_EL0 => rw [l₁.cntp_cval, l₂.cntp_cval, hoff]
  | ELR_EL2 => rw [l₁.elr, l₂.elr]
  | SPSR_EL2 => rw [l₁.spsr, l₂.spsr]
  | ESR_EL2 | FAR_EL2 | HPFAR_EL2 | VTCR_EL2 | MAIR_EL2 | HCR_EL2 | CNTHCTL_EL2 | ID_AA64MMFR1_EL1
  | ICH_VTR => exact h.same.common _ rfl
  | _ => cases hr

theorem exit_sys (h : Twins A r₁ r₂) (hA : r₁.vcpu ≠ A) (sl : Slice) :
    (r₁.exitMachine sl).sys = (r₂.exitMachine sl).sys := by
  funext r
  by_cases hw : r.guestWritable = true
  · rw [exitMachine_sys, exitMachine_sys]
    cases r <;> first | rfl | cases hw
  · have hr := h.entry_sys hA (Bool.eq_false_iff.mpr hw)
    by_cases hc : r.common = true
    · exact h.exit_common rfl hc
    · rw [exitMachine_sys, exitMachine_sys]
      cases r with
      | ELR_EL2 | SPSR_EL2 => rfl
      | CNTP_CTL_EL0 | CNTP_CVAL_EL0 | VTTBR_EL2 | CNTVOFF_EL2 => exact hr
      | _ => first | exact absurd rfl hw | exact absurd rfl hc

/-- When a vCPU other than `A` traps, the handler is called in states that agree for it. -/
theorem trapped_agree (h : Twins A r₁ r₂) (hA : r₁.vcpu ≠ A) (sl : Slice) :
    Agree r₁.vcpu (r₁.trapped sl) (r₂.trapped sl) := by
  have hsys := h.exit_sys hA sl
  have hx : (r₁.exitMachine sl).x = (r₂.exitMachine sl).x := by rw [exitMachine_x, exitMachine_x]
  have hclock : (r₁.exitMachine sl).clock = (r₂.exitMachine sl).clock := by
    rw [exitMachine_clock, exitMachine_clock, h.same.clock]
  have hinst : (r₁.exitMachine sl).instant = (r₂.exitMachine sl).instant := by
    rw [exitMachine_instant, exitMachine_instant, h.same.instant]
  have hmrs := Machine.mrs_congr hsys hclock hinst
  refine ⟨?_, ?_, ?_, ?_, ?_⟩
  · rw [trapped_m h.inv₁.latch, trapped_m h.inv₂.latch, hsys]
  · rw [trapped_m h.inv₁.latch, trapped_m h.inv₂.latch, exitMachine_q, exitMachine_q]
  · rw [trapped_m h.inv₁.latch, trapped_m h.inv₂.latch, hclock]
  · rw [trapped_m h.inv₁.latch, trapped_m h.inv₂.latch, hinst]
  · rw [trapped_arch h.inv₁.latch, h.vcpu, trapped_arch h.inv₂.latch, el2_vector_save_eq,
      el2_vector_save_eq, hmrs, hmrs, hsys, hx, ← h.vcpu, h.same.others _ hA]

theorem served_agree (h : Twins A r₁ r₂) (hA : r₁.vcpu ≠ A) {sl : Slice} (h₁ : Served r₁ sl a s₁)
    (h₂ : Served r₂ sl a s₂) : Agree r₁.vcpu s₁ s₂ := by
  have ht := h.trapped_agree hA sl
  have hc₁ := (trapped_coherent h.inv₁ sl).current
  have hc₂ := (trapped_coherent h.inv₂ sl).current
  rw [← h.vcpu] at hc₂
  cases h₁ with
  | access a =>
    cases h₂ with
    | access =>
      simp only [Running.emulated, ← h.vcpu, ht.elapse.cntvct]
      exact (ht.elapse.emulate_timer _ _ _ _).advance_guest_elr _
  | other h₁ n₁ =>
    cases h₂ with
    | other h₂ n₂ =>
      obtain ⟨out₁, rfl⟩ := handle_other h.inv₁ h₁ n₁
      obtain ⟨out₂, rfl⟩ := handle_other h.inv₂ h₂ n₂
      rw [← h.vcpu, ← h.trapEsr rfl]
      exact ht.otherReturn hc₁ hc₂ _ _ _ _

/-- Serving a trap keeps the states twins, whichever vCPU it is that trapped. -/
theorem served_same (h : Twins A r₁ r₂) (hsl : r₁.vcpu ≠ A → sl₁ = sl₂) (hx : sl₁.exit = sl₂.exit)
    (h₁ : Served r₁ sl₁ a s₁) (h₂ : Served r₂ sl₂ a s₂) : SameFor A s₁ s₂ := by
  have f₁ := h₁.frame h.inv₁
  have f₂ := h₂.frame h.inv₂
  refine ⟨?_, ?_, ?_, ?_, ?_, ?_, ?_, ?_⟩
  · rw [frame_sched h.inv₁ f₁, frame_sched h.inv₂ f₂, h.same.sched]
  · rw [f₁.lr_cached, f₂.lr_cached, trapped_lr_cached h.inv₁.latch, trapped_lr_cached h.inv₂.latch,
      h.same.lr_cached]
  · rw [f₁.vectors, f₂.vectors, trapped_guest_el1_vectors h.inv₁.latch,
      trapped_guest_el1_vectors h.inv₂.latch, h.same.vectors]
  · intro p hp
    by_cases hv : p = r₁.vcpu
    · subst hv
      obtain rfl := hsl hp
      exact (h.served_agree hp h₁ h₂).arch
    · have hv₂ : p ≠ r₂.vcpu := by rwa [← h.vcpu]
      rw [f₁.others p hv, f₂.others p hv₂, trapped_vcpu_of_ne h.inv₁.latch hv,
        trapped_vcpu_of_ne h.inv₂.latch hv₂, h.same.others p hp]
  · intro p
    by_cases hv : p = r₁.vcpu
    · subst hv
      have hreq := h.same.requests r₁.vcpu
      rw [h₁.request_yield h.inv₁, h.trapEsr hx, h.vcpu, h₂.request_yield h.inv₂, ← h.vcpu, hreq]
    · have hv₂ : p ≠ r₂.vcpu := by rwa [← h.vcpu]
      rw [f₁.others p hv, f₂.others p hv₂, trapped_vcpu_of_ne h.inv₁.latch hv,
        trapped_vcpu_of_ne h.inv₂.latch hv₂, h.same.requests p]
  · rw [f₁.clock, f₂.clock, trapped_m h.inv₁.latch, trapped_m h.inv₂.latch, exitMachine_clock,
      exitMachine_clock, h.same.clock]
  · rw [h₁.instant h.inv₁, h₂.instant h.inv₂, h.trapEsr hx, h.same.instant]
  · intro r hr
    have hw : r.handlerWritten = false := by cases r <;> first | rfl | cases hr
    rw [f₁.sys r hw, f₂.sys r hw, trapped_m h.inv₁.latch, trapped_m h.inv₂.latch,
      h.exit_common hx hr]

end Twins

/-- The call of `world_switch` that ends one step of two runs: from `s₁` in the one, from `s₂` in the
other. -/
structure TwinSwitch (A : VcpuPtr) (r₁ r₂ : Running) (sl₁ sl₂ : Slice) (r₁' r₂' : Running)
    (src : Option VcpuPtr) (s₁ s₂ : State) : Prop where
  eq₁ : r₁'.st = world_switch src r₁'.vcpu s₁
  eq₂ : r₂'.st = world_switch src r₁'.vcpu s₂
  vcpu : r₁'.vcpu = r₂'.vcpu
  site : r₁'.site = r₂'.site
  src_ne : src ≠ some r₁'.vcpu
  left : src = none ∨ src = some r₁.vcpu
  same : SameFor A s₁ s₂
  agree : r₁.vcpu ≠ A → s₁.m.sys = s₂.m.sys ∧ s₁.m.q = s₂.m.q
  kept₁ : ∀ r : SysReg, r.handlerWritten = false → s₁.m.sys r = (r₁.exitMachine sl₁).sys r
  kept₂ : ∀ r : SysReg, r.handlerWritten = false → s₂.m.sys r = (r₂.exitMachine sl₂).sys r
  q₁ : s₁.m.q = sl₁.q
  q₂ : s₂.m.q = sl₂.q
  fp : ∀ p, (s₁.vcpu p).arch.fp = (r₁.st.vcpu p).arch.fp

section TwinStep

variable {A : VcpuPtr} {r₁ r₂ r₁' r₂' : Running} {sl₁ sl₂ : Slice}

/-- The registers and copies that serving the trap leaves alone. -/
theorem Served.kept {r : Running} {sl : Slice} {a : Option Access} {s' : State} (hr : RunInv r)
    (h : Served r sl a s') :
    (∀ reg : SysReg, reg.handlerWritten = false → s'.m.sys reg = (r.exitMachine sl).sys reg) ∧
      s'.m.q = sl.q ∧ ∀ p, (s'.vcpu p).arch.fp = (r.st.vcpu p).arch.fp := by
  have hf := h.frame hr
  refine ⟨?_, ?_, ?_⟩
  · intro reg hreg
    rw [hf.sys reg hreg, trapped_m hr.latch]
  · rw [hf.q, trapped_m hr.latch, exitMachine_q]
  · intro p
    by_cases hp : p = r.vcpu
    · subst hp
      rw [hf.fp, trapped_arch hr.latch]
    · rw [hf.others p hp, trapped_vcpu_of_ne hr.latch hp]

theorem TwinStep.switch (h : Twins A r₁ r₂) (ht : TwinStep A r₁ r₂ sl₁ sl₂ r₁' r₂') :
    ∃ src s₁ s₂, TwinSwitch A r₁ r₂ sl₁ sl₂ r₁' r₂' src s₁ s₂ := by
  obtain ⟨hsl, hx, a, ⟨s₁, h₁, hr₁⟩, s₂, h₂, hr₂⟩ := ht
  have hsame := h.served_same hsl hx h₁ h₂
  have hagree : r₁.vcpu ≠ A → s₁.m.sys = s₂.m.sys ∧ s₁.m.q = s₂.m.q := by
    intro hA
    obtain rfl := hsl hA
    exact ⟨(h.served_agree hA h₁ h₂).sys, (h.served_agree hA h₁ h₂).q⟩
  obtain ⟨k₁, q₁, fp₁⟩ := h₁.kept h.inv₁
  obtain ⟨k₂, q₂, -⟩ := h₂.kept h.inv₂
  have hreq := hsame.requests r₁.vcpu
  have c₁ := resume_cases h.inv₁.current (frame_sched h.inv₁ (h₁.frame h.inv₁)) hr₁
  have c₂ := resume_cases h.inv₂.current (frame_sched h.inv₂ (h₂.frame h.inv₂)) hr₂
  rw [← h.site, ← h.same.sched, ← h.vcpu, ← hreq] at c₂
  rcases c₁ with ⟨hno, rfl⟩ | ⟨hsite, hy, next, target, htgt, rfl⟩
  · rcases c₂ with ⟨-, rfl⟩ | ⟨hsite, hy, next, target, htgt, -⟩
    · refine ⟨none, r₁.settle s₁, r₂.settle s₂, rfl, rfl, rfl, rfl, by simp, Or.inl rfl,
        hsame.settle h.vcpu h.site, ?_, ?_, ?_, ?_, ?_, ?_⟩
      · intro hA
        rw [settle_m, settle_m]
        exact hagree hA
      · intro r hr
        rw [settle_m]
        exact k₁ r hr
      · intro r hr
        rw [settle_m]
        exact k₂ r hr
      · rw [settle_m]
        exact q₁
      · rw [settle_m]
        exact q₂
      · intro p
        rw [settle_arch, fp₁]
    · -- the runs cannot part: both see the same request and the same queue
      rcases hno with hno | hno | hno
      · cases hsite.symm.trans hno
      · cases hy.symm.trans hno
      · cases htgt.symm.trans hno
  · rcases c₂ with ⟨hno, -⟩ | ⟨-, -, next', target', htgt', rfl⟩
    · rcases hno with hno | hno | hno
      · cases hsite.symm.trans hno
      · cases hy.symm.trans hno
      · cases htgt.symm.trans hno
    · cases htgt.symm.trans htgt'
      obtain ⟨-, -, -, hne⟩ := yieldTarget_some htgt
      refine ⟨some r₁.vcpu, r₁.yieldState s₁ next target, r₂.yieldState s₂ next target, rfl, rfl, rfl,
        rfl, fun he => hne (by rw [h.inv₁.current, he]), Or.inr rfl,
        hsame.yieldState h.vcpu next target, hagree, k₁, k₂, q₁, q₂, ?_⟩
      intro p
      rw [yieldState_arch, fp₁]

theorem TwinStep.twins (h : Twins A r₁ r₂) (ht : TwinStep A r₁ r₂ sl₁ sl₂ r₁' r₂') :
    Twins A r₁' r₂' := by
  obtain ⟨src, s₁, s₂, hsw⟩ := ht.switch h
  obtain ⟨-, -, a, h₁, h₂⟩ := ht
  refine ⟨h₁.inv h.inv₁, h₂.inv h.inv₂, h₁.entered h.inv₁, h₂.entered h.inv₂, hsw.vcpu, hsw.site, ?_⟩
  rw [hsw.eq₁, hsw.eq₂]
  refine hsw.same.switch hsw.src_ne fun p hp hA => hsw.agree ?_
  rcases hsw.left with hl | hl
  · cases hl.symm.trans hp
  · cases hl.symm.trans hp
    exact hA

end TwinStep

/-- Two steps of `vcpu_run` in runs that have been twins so far. -/
theorem Twins.twinStep {A : VcpuPtr} {r₁ r₂ r₁' r₂' : Running} {sl₁ sl₂ : Slice} (h : Twins A r₁ r₂)
    (hsl : r₁.vcpu ≠ A → sl₁ = sl₂) (hx : sl₁.exit = sl₂.exit) (h₁ : r₁.step sl₁ = some r₁')
    (h₂ : r₂.step sl₂ = some r₂') : TwinStep A r₁ r₂ sl₁ sl₂ r₁' r₂' := by
  refine ⟨hsl, hx, timerAccess (r₁.trapEsr sl₁), step_served h.inv₁ h₁, ?_⟩
  rw [h.trapEsr hx]
  exact step_served h.inv₂ h₂

theorem TwinRuns.twins {A : VcpuPtr} {C : Running → Slice → Slice → Running → Prop}
    {r₁ r₂ : Running} (h : TwinRuns A C r₁ r₂) : Twins A r₁ r₂ := by
  induction h with
  | start hs h =>
    exact ⟨start_inv hs h, start_inv hs h, start_entered h, start_entered h, rfl, rfl, .refl A _⟩
  | step _ ht _ ih => exact ht.twins ih

end Schism
