import Schism.Proofs.EsrProofs
import Schism.Proofs.NoninterferenceProofs

/-!
# What a vCPU sees of another one

Three views of a vCPU that runs beside `A`: its virtual time, the SIMD registers and the EL1 state.
The first is the vCPU's own. The other two are its own only in so far as an entry loads the registers:
the SIMD file is loaded once a copy has been made, and eight EL1 registers never are.
-/

namespace Schism

/-! ## Virtual time -/

/-- The registers of virtual time. -/
def SysReg.timer : SysReg → Bool
  | .CNTVOFF_EL2 | .CNTP_CVAL_EL0 | .CNTP_CTL_EL0 | .CNTV_CVAL_EL0 | .CNTV_CTL_EL0 => true
  | _ => false

theorem Twins.entry_timer {A : VcpuPtr} {r₁ r₂ : Running} (h : Twins A r₁ r₂) (hA : r₁.vcpu ≠ A)
    {reg : SysReg} (hreg : reg.timer = true) : r₁.st.m.sys reg = r₂.st.m.sys reg := by
  have ha : (r₁.st.vcpu r₁.vcpu).arch = (r₂.st.vcpu r₂.vcpu).arch := by
    rw [h.same.others _ hA, h.vcpu]
  cases reg with
  | CNTVOFF_EL2 | CNTP_CVAL_EL0 | CNTP_CTL_EL0 => exact h.entry_sys hA rfl
  | CNTV_CVAL_EL0 => rw [h.entered₁.loaded.cntv_cval, h.entered₂.loaded.cntv_cval, ha]
  | CNTV_CTL_EL0 => rw [h.entered₁.loaded.cntv_ctl, h.entered₂.loaded.cntv_ctl, ha]
  | _ => cases hreg

/-- Whatever `A` passes to the hypervisor or writes to its timers, the other vCPUs run in the same order
with the same offsets and snapshots, and each finds the same timer registers at its entries and leaves
the same ones at its exits. -/
theorem virtual_time_isolated {A : VcpuPtr} {r₁ r₂ : Running}
    (h : TwinRuns A (fun _ _ _ _ => True) r₁ r₂) :
    r₁.vcpu = r₂.vcpu ∧
    (∀ B, B ≠ A → (r₁.st.vcpu B).arch.cntvct_el0 = (r₂.st.vcpu B).arch.cntvct_el0 ∧
      (r₁.st.vcpu B).arch.cntvoff_el2 = (r₂.st.vcpu B).arch.cntvoff_el2) ∧
    (r₁.vcpu ≠ A → ∀ reg : SysReg, reg.timer = true →
      r₁.st.m.sys reg = r₂.st.m.sys reg ∧
      ∀ sl : Slice, (r₁.exitMachine sl).sys reg = (r₂.exitMachine sl).sys reg) := by
  have ht := h.twins
  refine ⟨ht.vcpu, fun B hB => ?_, fun hA reg hreg => ⟨ht.entry_timer hA hreg, fun sl => ?_⟩⟩
  · rw [ht.same.others B hB]
    exact ⟨rfl, rfl⟩
  · rw [ht.exit_sys hA sl]

section Cold

variable {C : Running → Slice → Slice → Running → Prop} {r₁ r₂ : Running} {sl₁ sl₂ : Slice}

/-- The cold machine before its first slice, twice. -/
theorem coldTwins : TwinRuns 0 C coldEntry coldEntry := by
  obtain ⟨s, hs, hboot⟩ := coldBoot_eq
  exact .start hs (hboot ▸ coldEntry_eq)

/-- Its vCPU `0` leaves different registers in the two runs. -/
theorem coldTwins_step (h₁ : coldEntry.step sl₁ = some r₁) (h₂ : coldEntry.step sl₂ = some r₂)
    (hx : sl₁.exit = sl₂.exit) : TwinStep 0 coldEntry coldEntry sl₁ sl₂ r₁ r₂ :=
  (coldTwins (C := fun _ _ _ _ => True)).twins.twinStep (fun h => absurd rfl h) hx h₁ h₂

/-- While all slices are the same, so are the two runs. -/
theorem TwinRuns.same {A : VcpuPtr} {r r' : Running} {sls : List Slice}
    (h : TwinRuns A (fun _ _ _ _ => True) r r) (hrun : sls.foldlM Running.step r = some r') :
    TwinRuns A (fun _ _ _ _ => True) r' r' := by
  induction sls generalizing r with
  | nil =>
    cases hrun
    exact h
  | cons sl sls ih =>
    rw [List.foldlM_cons] at hrun
    obtain ⟨r₁, hstep, hrun⟩ := Option.bind_eq_some_iff.mp hrun
    exact ih (h.step (h.twins.twinStep (fun _ => rfl) rfl hstep hstep) trivial) hrun

end Cold

/-- A slice that leaves `v` in one system register and waits. -/
def sysSlice (reg : SysReg) (v : U64) : Slice :=
  { coldSlice 0x04000000 with sys := Function.update (fun _ => 0) reg v }

/-- Two runs in which vCPU `0` sets its virtual timer differently and waits, so that vCPU `1` is next. -/
theorem timer_twins : ∃ r₁ r₂, coldEntry.step (sysSlice .CNTV_CVAL_EL0 5) = some r₁ ∧
    coldEntry.step (sysSlice .CNTV_CVAL_EL0 9) = some r₂ ∧ r₁.vcpu = 1 := by
  obtain ⟨r₁, h₁, hv⟩ : ∃ r, coldEntry.step (sysSlice .CNTV_CVAL_EL0 5) = some r ∧ r.vcpu = 1 :=
    Option.map_eq_some_iff.mp (by decide)
  obtain ⟨r₂, h₂⟩ : ∃ r, coldEntry.step (sysSlice .CNTV_CVAL_EL0 9) = some r :=
    Option.isSome_iff_exists.mp (by decide)
  exact ⟨r₁, r₂, h₁, h₂, hv⟩

/-- vCPU `0` of the cold machine sets its virtual timer to five in one run and to nine in the other,
and waits: vCPU `1` starts with the same offset and the same timer. -/
theorem virtual_time_isolated_cold :
    ∃ r₁ r₂, coldEntry.step (sysSlice .CNTV_CVAL_EL0 5) = some r₁ ∧
      coldEntry.step (sysSlice .CNTV_CVAL_EL0 9) = some r₂ ∧
      r₁.st.m.sys .CNTVOFF_EL2 = r₂.st.m.sys .CNTVOFF_EL2 ∧
      r₁.st.m.sys .CNTV_CVAL_EL0 = r₂.st.m.sys .CNTV_CVAL_EL0 := by
  obtain ⟨r₁, r₂, h₁, h₂, hv⟩ := timer_twins
  have hiso := (virtual_time_isolated (coldTwins.step (coldTwins_step h₁ h₂ rfl) trivial)).2.2
    (by rw [hv]; decide)
  exact ⟨r₁, r₂, h₁, h₂, (hiso .CNTVOFF_EL2 rfl).1, (hiso .CNTV_CVAL_EL0 rfl).1⟩

/-! ## SIMD state -/

/-- `Q0`-`Q31`, `FPCR` and `FPSR`. -/
def Machine.fpFile (m : Machine) : (Fin 32 → U64 × U64) × U64 × U64 :=
  (m.q, m.sys .FPCR, m.sys .FPSR)

/-- What the guest leaves in them. -/
def Slice.fpFile (sl : Slice) : (Fin 32 → U64 × U64) × U64 × U64 := (sl.q, sl.sys .FPCR, sl.sys .FPSR)

theorem world_switch_fpFile (s : State) {src : Option VcpuPtr} {target : VcpuPtr}
    (hsrc : src ≠ some target) :
    (world_switch src target s).m.fpFile = if (s.vcpu target).arch.fp.used = 0 then s.m.fpFile else
      ((s.vcpu target).arch.fp.vregs, (s.vcpu target).arch.fp.fpcr.setWidth 64,
        (s.vcpu target).arch.fp.fpsr.setWidth 64) := by
  have hq := world_switch_q s hsrc
  have hc := world_switch_sys s hsrc .FPCR
  have hd := world_switch_sys s hsrc .FPSR
  unfold Machine.fpFile
  rw [hq, hc, hd]
  split <;> rfl

/-- If `A` is left for a vCPU that has not been switched out yet, it leaves the same SIMD registers in
both runs. -/
def FpClean (A : VcpuPtr) (r : Running) (sl₁ sl₂ : Slice) (r' : Running) : Prop :=
  r.vcpu = A → r'.vcpu ≠ A → (r.st.vcpu r'.vcpu).arch.fp.used = 0 → sl₁.fpFile = sl₂.fpFile

section Simd

variable {A : VcpuPtr} {r₁ r₂ r₁' r₂' : Running} {sl₁ sl₂ : Slice}

theorem TwinStep.fp_iff (h : Twins A r₁ r₂) (ht : TwinStep A r₁ r₂ sl₁ sl₂ r₁' r₂')
    (hB : r₁'.vcpu ≠ A) : r₁'.st.m.fpFile = r₂'.st.m.fpFile ↔ FpClean A r₁ sl₁ sl₂ r₁' := by
  obtain ⟨src, s₁, s₂, hsw⟩ := ht.switch h
  have hleft₁ : s₁.m.fpFile = sl₁.fpFile := by
    rw [Machine.fpFile, hsw.q₁, hsw.kept₁ .FPCR rfl, hsw.kept₁ .FPSR rfl, exitMachine_sys,
      exitMachine_sys]
    rfl
  have hleft₂ : s₂.m.fpFile = sl₂.fpFile := by
    rw [Machine.fpFile, hsw.q₂, hsw.kept₂ .FPCR rfl, hsw.kept₂ .FPSR rfl, exitMachine_sys,
      exitMachine_sys]
    rfl
  rw [hsw.eq₁, hsw.eq₂, world_switch_fpFile s₁ hsw.src_ne, world_switch_fpFile s₂ hsw.src_ne, hleft₁,
    hleft₂, ← hsw.same.others _ hB, hsw.fp]
  by_cases hu : (r₁.st.vcpu r₁'.vcpu).arch.fp.used = 0
  · rw [if_pos hu, if_pos hu]
    constructor
    · exact fun hs _ _ _ => hs
    · intro hc
      by_cases hA : r₁.vcpu = A
      · exact hc hA hB hu
      · rw [ht.slice hA]
  · rw [if_neg hu, if_neg hu]
    exact ⟨fun _ _ _ h0 => absurd h0 hu, fun _ => rfl⟩

/-- In two runs whose steps all keep `A`'s SIMD registers from vCPUs that have no copy of their own yet,
every other vCPU finds the same SIMD registers at each of its entries; and in any two runs it finds the
same ones at an entry exactly when the step before the entry does so. -/
theorem fp_noninterference_iff (A : VcpuPtr) :
    (∀ r₁ r₂, TwinRuns A (FpClean A) r₁ r₂ → r₁.vcpu ≠ A → r₁.st.m.fpFile = r₂.st.m.fpFile) ∧
    ∀ r₁ r₂ sl₁ sl₂ r₁' r₂', TwinRuns A (fun _ _ _ _ => True) r₁ r₂ →
      TwinStep A r₁ r₂ sl₁ sl₂ r₁' r₂' → r₁'.vcpu ≠ A →
      (r₁'.st.m.fpFile = r₂'.st.m.fpFile ↔ FpClean A r₁ sl₁ sl₂ r₁') := by
  constructor
  · intro r₁ r₂ h hB
    cases h with
    | start => rfl
    | step h ht hC => exact (ht.fp_iff h.twins hB).mpr hC
  · intro r₁ r₂ sl₁ sl₂ r₁' r₂' h ht hB
    exact ht.fp_iff h.twins hB

end Simd

/-- A slice that leaves `v` in `q0` and waits. -/
def q0Slice (v : U64) : Slice :=
  { coldSlice 0x04000000 with q := Function.update (fun _ => (0, 0)) 0 (v, 0) }

/-- vCPU `0` is back and has reported, and vCPU `1` has a copy of its own. Now vCPU `0` leaves zero in `q0` in
one run and seven in the other, and vCPU `1` finds its copy in both. -/
theorem fp_noninterference_cold :
    ∃ r r₁ r₂, coldRun (coldRound ++ [coldSlice 0x58000060]) = some r ∧ (r.st.vcpu 1).arch.fp.used = 1 ∧
      (q0Slice 0).fpFile ≠ (q0Slice 7).fpFile ∧ r.step (q0Slice 0) = some r₁ ∧
      r.step (q0Slice 7) = some r₂ ∧ r₁.vcpu = 1 ∧ r₁.st.m.fpFile = r₂.st.m.fpFile := by
  obtain ⟨r, hr, hobs⟩ := Option.map_eq_some_iff.mp
    (by decide : (coldRun (coldRound ++ [coldSlice 0x58000060])).map
      (fun r => (r.vcpu, (r.st.vcpu 1).arch.fp.used)) = some (0, 1))
  obtain ⟨hA, hused⟩ := Prod.mk.inj hobs
  have hnext : ∀ v : U64, coldRun ((coldRound ++ [coldSlice 0x58000060]) ++ [q0Slice v]) =
      r.step (q0Slice v) := by
    intro v
    rw [coldRun_concat, hr, Option.bind_some]
  obtain ⟨r₁, h₁, hv⟩ := Option.map_eq_some_iff.mp
    (by decide : (coldRun ((coldRound ++ [coldSlice 0x58000060]) ++ [q0Slice 0])).map Running.vcpu = some 1)
  obtain ⟨r₂, h₂⟩ := Option.isSome_iff_exists.mp
    (by decide : (coldRun ((coldRound ++ [coldSlice 0x58000060]) ++ [q0Slice 7])).isSome)
  rw [hnext] at h₁ h₂
  have htwins : TwinRuns 0 (fun _ _ _ _ => True) r r := coldTwins.same hr
  have hdiffer : (q0Slice 0).fpFile ≠ (q0Slice 7).fpFile := by
    intro h
    exact absurd (congrFun (congrArg Prod.fst h) 0) (by decide)
  have hview := (fp_noninterference_iff 0).2 r r (q0Slice 0) (q0Slice 7) r₁ r₂ htwins
    (htwins.twins.twinStep (fun h => absurd hA h) rfl h₁ h₂) (by rw [hv]; decide)
  refine ⟨r, r₁, r₂, hr, hused, hdiffer, h₁, h₂, hv, hview.mpr ?_⟩
  intro _ _ h0
  rw [hv, hused] at h0
  exact absurd h0 (by decide)

/-- At the first entry of vCPU `1` it finds what vCPU `0` has left in `q0`. -/
theorem fp_leaks_at_first_entry :
    ¬ ∀ (A : VcpuPtr) (r₁ r₂ : Running), TwinRuns A (fun _ _ _ _ => True) r₁ r₂ → r₁.vcpu ≠ A →
      r₁.st.m.fpFile = r₂.st.m.fpFile := by
  intro hall
  have hrun₁ : (coldEntry.step (q0Slice 0)).map (fun r => (r.vcpu, r.st.m.q 0)) =
      some (1, (0, 0)) := by decide
  have hrun₂ : (coldEntry.step (q0Slice 7)).map (fun r => (r.vcpu, r.st.m.q 0)) =
      some (1, (7, 0)) := by decide
  obtain ⟨r₁, h₁, hobs₁⟩ := Option.map_eq_some_iff.mp hrun₁
  obtain ⟨r₂, h₂, hobs₂⟩ := Option.map_eq_some_iff.mp hrun₂
  obtain ⟨hv, hq₁⟩ := Prod.mk.inj hobs₁
  obtain ⟨-, hq₂⟩ := Prod.mk.inj hobs₂
  have h := hall 0 r₁ r₂ (coldTwins.step (coldTwins_step h₁ h₂ rfl) trivial) (by rw [hv]; decide)
  have hq : r₁.st.m.q 0 = r₂.st.m.q 0 := congrFun (congrArg Prod.fst h) 0
  rw [hq₁, hq₂] at hq
  exact absurd hq (by decide)

/-! ## EL1 state -/

/-- The registers of EL1 and EL0 that neither the exit saves nor an entry loads. -/
def SysReg.unsaved : SysReg → Bool
  | .SP_EL0 | .ELR_EL1 | .SPSR_EL1 | .ESR_EL1 | .FAR_EL1 | .MAIR_EL1 | .TPIDR_EL0
  | .CONTEXTIDR_EL1 => true
  | _ => false

/-- The system registers that a guest writes without trapping and regards as its own: those that are
not saved, `VBAR_EL1`, and those of the frame. -/
def SysReg.el1State : SysReg → Bool
  | .VBAR_EL1 | .SP_EL1 | .TTBR0_EL1 | .TTBR1_EL1 | .TCR_EL1 | .SCTLR_EL1 | .TPIDR_EL1
  | .CNTKCTL_EL1 | .CNTV_CTL_EL0 | .CNTV_CVAL_EL0 => true
  | reg => reg.unsaved

/-- What the guest has written to one of them. Only `ENABLE` and `IMASK` of a control register are its
own. -/
def Machine.written (m : Machine) : SysReg → U64
  | .CNTV_CTL_EL0 => m.sys .CNTV_CTL_EL0 &&& 0x3
  | reg => m.sys reg

/-- The EL1 state of the two machines is the same. -/
def SameEl1 (m₁ m₂ : Machine) : Prop :=
  ∀ reg : SysReg, reg.el1State = true → m₁.written reg = m₂.written reg

theorem Machine.written_unsaved (m : Machine) {reg : SysReg} (hreg : reg.unsaved = true) :
    m.written reg = m.sys reg := by
  cases reg <;> first | rfl | cases hreg

theorem Machine.written_congr {m₁ m₂ : Machine} {reg : SysReg} (h : m₁.sys reg = m₂.sys reg) :
    m₁.written reg = m₂.written reg := by
  cases reg with
  | CNTV_CTL_EL0 => exact congrArg (· &&& 0x3) h
  | _ => exact h

theorem SysReg.el1State_of_unsaved {reg : SysReg} (hreg : reg.unsaved = true) :
    reg.el1State = true := by
  cases reg <;> first | rfl | cases hreg

theorem world_switch_unsaved (s : State) {src : Option VcpuPtr} {target : VcpuPtr}
    (hsrc : src ≠ some target) {reg : SysReg} (hreg : reg.unsaved = true) :
    (world_switch src target s).m.sys reg = s.m.sys reg := by
  cases reg with
  | SP_EL0 | ELR_EL1 | SPSR_EL1 | ESR_EL1 | FAR_EL1 | MAIR_EL1 | TPIDR_EL0 | CONTEXTIDR_EL1 =>
    exact world_switch_sys s hsrc _
  | _ => cases hreg

theorem SysReg.unsaved_kept {reg : SysReg} (hreg : reg.unsaved = true) :
    reg.handlerWritten = false := by
  cases reg <;> first | rfl | cases hreg

theorem SysReg.loaded_of_el1State {reg : SysReg} (hstate : reg.el1State = true)
    (hreg : ¬ reg.unsaved = true) : reg.loaded = true := by
  cases reg <;> first | rfl | exact absurd rfl hreg | cases hstate

theorem exitMachine_unsaved (r : Running) (sl : Slice) {reg : SysReg} (hreg : reg.unsaved = true) :
    (r.exitMachine sl).sys reg = sl.sys reg := by
  rw [exitMachine_sys]
  cases reg <;> first | rfl | cases hreg

/-- If `A` is left for another vCPU, it leaves the same values in both runs in the registers that are
not saved. -/
def El1Clean (A : VcpuPtr) (r : Running) (sl₁ sl₂ : Slice) (r' : Running) : Prop :=
  r.vcpu = A → r'.vcpu ≠ A → ∀ reg : SysReg, reg.unsaved = true → sl₁.sys reg = sl₂.sys reg

section El1

variable {A : VcpuPtr} {r₁ r₂ r₁' r₂' : Running} {sl₁ sl₂ : Slice}

theorem TwinStep.el1_iff (h : Twins A r₁ r₂) (ht : TwinStep A r₁ r₂ sl₁ sl₂ r₁' r₂')
    (hB : r₁'.vcpu ≠ A) :
    SameEl1 r₁'.st.m r₂'.st.m ↔ El1Clean A r₁ sl₁ sl₂ r₁' := by
  obtain ⟨src, s₁, s₂, hsw⟩ := ht.switch h
  have seen : ∀ reg : SysReg, reg.unsaved = true →
      r₁'.st.m.sys reg = sl₁.sys reg ∧ r₂'.st.m.sys reg = sl₂.sys reg := by
    intro reg hreg
    have hk := SysReg.unsaved_kept hreg
    rw [hsw.eq₁, hsw.eq₂, world_switch_unsaved s₁ hsw.src_ne hreg,
      world_switch_unsaved s₂ hsw.src_ne hreg, hsw.kept₁ reg hk, hsw.kept₂ reg hk,
      exitMachine_unsaved _ _ hreg, exitMachine_unsaved _ _ hreg]
    exact ⟨rfl, rfl⟩
  constructor
  · intro hsame _ _ reg hreg
    have h := hsame reg (SysReg.el1State_of_unsaved hreg)
    rw [Machine.written_unsaved _ hreg, Machine.written_unsaved _ hreg] at h
    rw [← (seen reg hreg).1, h, (seen reg hreg).2]
  · intro hc reg hstate
    refine Machine.written_congr ?_
    by_cases hreg : reg.unsaved = true
    · rw [(seen reg hreg).1, (seen reg hreg).2]
      by_cases hA : r₁.vcpu = A
      · exact hc hA hB reg hreg
      · rw [ht.slice hA]
    · rw [hsw.eq₁, hsw.eq₂]
      exact hsw.same.entry_loaded hsw.src_ne hB (SysReg.loaded_of_el1State hstate hreg)

end El1

/-- `r'` is the next entry of the vCPU of `r` after its slice `sl`, and the slice `sl₀` that starts at
`r₀` is the last one before it. -/
def NextEntryVia (r : Running) (sl : Slice) (r₀ : Running) (sl₀ : Slice) (r' : Running) : Prop :=
  r'.vcpu = r.vcpu ∧ r₀.step sl₀ = some r' ∧
  ((r₀ = r ∧ sl₀ = sl) ∨
    r₀.vcpu ≠ r.vcpu ∧ ∃ r₁, r.step sl = some r₁ ∧ Relation.ReflTransGen (StepAvoiding r.vcpu) r₁ r₀)

section NextEntry

variable {r r' r₀ : Running} {sl sl₀ : Slice}

theorem NextEntryVia.nextEntry (h : NextEntryVia r sl r₀ sl₀ r') : NextEntry r sl r' := by
  rcases h with ⟨hv, hstep, ⟨rfl, rfl⟩ | ⟨hne, r₁, h₁, hpath⟩⟩
  · exact ⟨hv, r', hstep, .refl⟩
  · exact ⟨hv, r₁, h₁, hpath.tail ⟨hne, sl₀, hstep⟩⟩

theorem NextEntryVia.reachable (h : NextEntryVia r sl r₀ sl₀ r') (hr : Reachable r) :
    Reachable r₀ := by
  rcases h with ⟨-, -, ⟨rfl, -⟩ | ⟨-, r₁, h₁, hpath⟩⟩
  · exact hr
  · exact avoiding_reachable (.step hr h₁) hpath

/-- What a guest leaves in a register that is not saved is there at the next entry of any guest. -/
theorem step_unsaved (hr : RunInv r) (h : r.step sl = some r') {reg : SysReg}
    (hreg : reg.unsaved = true) : r'.st.m.sys reg = sl.sys reg := by
  obtain ⟨s', hs', hf, hcase⟩ := step_cases hr.latch hr.current h
  have hleft : s'.m.sys reg = sl.sys reg := by
    rw [hf.sys reg (SysReg.unsaved_kept hreg), trapped_m hr.latch, exitMachine_unsaved r sl hreg]
  rcases hcase with ⟨-, rfl⟩ | ⟨-, -, next, target, hy, rfl⟩
  · have hsrc : none ≠ some r.vcpu := by simp
    rw [world_switch_unsaved _ hsrc hreg, settle_m]
    exact hleft
  · obtain ⟨-, -, -, hne⟩ := yieldTarget_some hy
    have hsrc : some r.vcpu ≠ some target := fun he => hne (by rw [hr.current, he])
    rw [world_switch_unsaved _ hsrc hreg]
    exact hleft

theorem step_guest_el1_vectors (hr : RunInv r) (h : r.step sl = some r') :
    r'.st.guest_el1_vectors = r.st.guest_el1_vectors := by
  obtain ⟨s', -, hf, hcase⟩ := step_cases hr.latch hr.current h
  have hv : s'.guest_el1_vectors = r.st.guest_el1_vectors :=
    hf.vectors.trans (trapped_guest_el1_vectors hr.latch)
  rcases hcase with ⟨-, rfl⟩ | ⟨-, -, next, target, -, rfl⟩
  · rw [world_switch_guest_el1_vectors, ← hv]
    unfold Running.settle
    split <;> rfl
  · rw [world_switch_guest_el1_vectors, ← hv]
    rfl

theorem next_entry_guest_el1_vectors (hr : Reachable r) (h : NextEntry r sl r') :
    r'.st.guest_el1_vectors = r.st.guest_el1_vectors := by
  obtain ⟨-, r₁, hstep, hpath⟩ := h
  rw [← step_guest_el1_vectors (reachable_inv hr) hstep]
  have hr₁ : Reachable r₁ := .step hr hstep
  induction hpath with
  | refl => rfl
  | tail hp hs ih =>
    obtain ⟨-, sl', hs⟩ := hs
    rw [step_guest_el1_vectors (reachable_inv (avoiding_reachable hr₁ hp)) hs, ih]

theorem reachable_vbar (hr : Reachable r) : r.st.m.sys .VBAR_EL1 = r.st.guest_el1_vectors := by
  obtain ⟨src, s, hsrc, he⟩ := reachable_entered hr
  rw [he, world_switch_guest_el1_vectors]
  exact world_switch_sys s hsrc .VBAR_EL1

/-- No access is decoded as a write. -/
theorem not_timerWrite (esr : U64) (reg : TimerReg) : ¬ TimerWrite esr reg := by
  rintro ⟨rt, h⟩
  unfold timerAccess at h
  split at h
  · obtain ⟨reg', hreg, he⟩ := Option.map_eq_some_iff.mp h
    have hread := esr_sys64_is_read_of_timerCase hreg
    simp only [Prod.mk.injEq] at he
    rw [hread] at he
    cases he.2.1
  · cases h

theorem next_entry_el1_iff (hr : Reachable r) (h : NextEntryVia r sl r₀ sl₀ r') :
    SameEl1 (r.exitMachine sl) r'.st.m ↔
      (∀ reg : SysReg, reg.unsaved = true → sl₀.sys reg = sl.sys reg) ∧
        sl.sys .VBAR_EL1 = r.st.guest_el1_vectors := by
  have hr₀ := h.reachable hr
  have hr' : Reachable r' := .step hr₀ h.2.1
  have hkept := next_entry_resumes hr h.nextEntry
  have hno := not_timerWrite (r.trapEsr sl)
  have hvbar : r'.st.m.sys .VBAR_EL1 = r.st.guest_el1_vectors := by
    rw [reachable_vbar hr', next_entry_guest_el1_vectors hr h.nextEntry]
  have hvbar' : (r.exitMachine sl).sys .VBAR_EL1 = sl.sys .VBAR_EL1 := exitMachine_sys r sl _
  constructor
  · intro hall
    refine ⟨?_, ?_⟩
    · intro reg hreg
      have hsame := hall reg (SysReg.el1State_of_unsaved hreg)
      rw [Machine.written_unsaved _ hreg, Machine.written_unsaved _ hreg,
        exitMachine_unsaved r sl hreg, step_unsaved (reachable_inv hr₀) h.2.1 hreg] at hsame
      exact hsame.symm
    · have hsame : (r.exitMachine sl).sys .VBAR_EL1 = r'.st.m.sys .VBAR_EL1 := hall .VBAR_EL1 rfl
      rw [← hvbar', hsame, hvbar]
  · rintro ⟨hsame, hv⟩ reg hstate
    by_cases hreg : reg.unsaved = true
    · refine Machine.written_congr ?_
      rw [step_unsaved (reachable_inv hr₀) h.2.1 hreg, hsame reg hreg, exitMachine_unsaved r sl hreg]
    · cases reg with
      | VBAR_EL1 => exact (hvbar'.trans hv).trans hvbar.symm
      | SP_EL1 | TTBR0_EL1 | TTBR1_EL1 | TCR_EL1 | SCTLR_EL1 | TPIDR_EL1 | CNTKCTL_EL1 =>
        exact (hkept.sys _ rfl).symm
      | CNTV_CTL_EL0 => exact (hkept.cntv_ctl (hno _)).symm
      | CNTV_CVAL_EL0 => exact (hkept.cntv_cval (hno _) (hno _)).symm
      | _ => first | exact absurd rfl hreg | cases hstate

end NextEntry

/-- In two runs whose steps all keep `A`'s unsaved registers from the others, every other vCPU finds the
same EL1 state at each of its entries, and in any two runs it does so exactly when the step before the
entry does. `A` itself finds at its next entry the state it left exactly when the last slice before the
entry ended with its values in the unsaved registers, and its vectors are the hypervisor's. -/
theorem el1_noninterference_iff (A : VcpuPtr) :
    (∀ r₁ r₂, TwinRuns A (El1Clean A) r₁ r₂ → r₁.vcpu ≠ A → SameEl1 r₁.st.m r₂.st.m) ∧
    (∀ r₁ r₂ sl₁ sl₂ r₁' r₂', TwinRuns A (fun _ _ _ _ => True) r₁ r₂ →
      TwinStep A r₁ r₂ sl₁ sl₂ r₁' r₂' → r₁'.vcpu ≠ A →
      (SameEl1 r₁'.st.m r₂'.st.m ↔ El1Clean A r₁ sl₁ sl₂ r₁')) ∧
    ∀ r sl r₀ sl₀ r', Reachable r → r.vcpu = A → NextEntryVia r sl r₀ sl₀ r' →
      (SameEl1 (r.exitMachine sl) r'.st.m ↔
        (∀ reg : SysReg, reg.unsaved = true → sl₀.sys reg = sl.sys reg) ∧
          sl.sys .VBAR_EL1 = r.st.guest_el1_vectors) := by
  refine ⟨?_, fun r₁ r₂ sl₁ sl₂ r₁' r₂' h ht hB => ht.el1_iff h.twins hB,
    fun r sl r₀ sl₀ r' hr _ h => next_entry_el1_iff hr h⟩
  intro r₁ r₂ h hB
  cases h with
  | start => exact fun _ _ => rfl
  | step h ht hC => exact (ht.el1_iff h.twins hB).mpr hC

/-- vCPU `0` of the cold machine leaves the same unsaved registers in two runs. -/
theorem el1_noninterference_cold :
    ∃ r₁ r₂, coldEntry.step (sysSlice .CNTV_CVAL_EL0 5) = some r₁ ∧
      coldEntry.step (sysSlice .CNTV_CVAL_EL0 9) = some r₂ ∧ SameEl1 r₁.st.m r₂.st.m := by
  obtain ⟨r₁, r₂, h₁, h₂, hv⟩ := timer_twins
  have hleft : ∀ reg : SysReg, reg.unsaved = true →
      (sysSlice .CNTV_CVAL_EL0 5).sys reg = (sysSlice .CNTV_CVAL_EL0 9).sys reg := by
    intro reg hreg
    have hne : reg ≠ .CNTV_CVAL_EL0 := by
      rintro rfl
      cases hreg
    simp [sysSlice, hne]
  have hview := (el1_noninterference_iff 0).2.1 coldEntry coldEntry _ _ r₁ r₂ coldTwins
    (coldTwins_step h₁ h₂ rfl) (by rw [hv]; decide)
  exact ⟨r₁, r₂, h₁, h₂, hview.mpr fun _ _ => hleft⟩

/-- vCPU `1` finds in `TPIDR_EL0` what vCPU `0` has left there. -/
theorem tpidr_el0_leaks :
    ¬ ∀ (A : VcpuPtr) (r₁ r₂ : Running), TwinRuns A (fun _ _ _ _ => True) r₁ r₂ → r₁.vcpu ≠ A →
      SameEl1 r₁.st.m r₂.st.m := by
  intro hall
  have hrun₁ : (coldEntry.step (sysSlice .TPIDR_EL0 0)).map (fun r =>
      (r.vcpu, r.st.m.sys .TPIDR_EL0)) = some (1, 0) := by decide
  have hrun₂ : (coldEntry.step (sysSlice .TPIDR_EL0 7)).map (fun r =>
      (r.vcpu, r.st.m.sys .TPIDR_EL0)) = some (1, 7) := by decide
  obtain ⟨r₁, h₁, hobs₁⟩ := Option.map_eq_some_iff.mp hrun₁
  obtain ⟨r₂, h₂, hobs₂⟩ := Option.map_eq_some_iff.mp hrun₂
  obtain ⟨hv, htp₁⟩ := Prod.mk.inj hobs₁
  obtain ⟨-, htp₂⟩ := Prod.mk.inj hobs₂
  have h : r₁.st.m.sys .TPIDR_EL0 = r₂.st.m.sys .TPIDR_EL0 :=
    hall 0 r₁ r₂ (coldTwins.step (coldTwins_step h₁ h₂ rfl) trivial) (by rw [hv]; decide)
      .TPIDR_EL0 rfl
  rw [htp₁, htp₂] at h
  exact absurd h (by decide)

end Schism
