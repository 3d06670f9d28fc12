import Schism.Proofs.ServedProofs
import Schism.Proofs.TimeProofs

/-!
# The compare value of the emulated physical timer

The compare value lives as a virtual count in the frame and as a physical one in `CNTP_CVAL_EL0`. The
history of a run says which value a vCPU has set last (`CompareIs`); the frame holds it at every entry,
and the hardware holds it less the offset that was programmed for the entry.
-/

namespace Schism

/-! ## The history of a vCPU's compare value -/

/-- `(rt < 31) ? x[rt] : 0`, of the registers the guest leaves. -/
def Slice.gpr (sl : Slice) (rt : U32) : U64 :=
  if h : rt.toNat < 31 then sl.x ⟨rt.toNat, h⟩ else 0

/-- The virtual compare value that the access sets: a `CVAL` write sets the operand, a `TVAL` write the
current virtual count plus the sign-extended low half of the operand. -/
def Running.writtenCompare (r : Running) (sl : Slice) : Option Access → Option U64
  | some (.CNTP_CVAL_EL0, false, rt) => some (sl.gpr rt)
  | some (.CNTP_TVAL_EL0, false, rt) => some ((r.exitMachine sl).elapse.cntvct + sext32 (sl.gpr rt))
  | _ => none

/-- In a run that has come to `r`, the last value that an access of `v` set is `c`; the value of the
initial frame if there was none. -/
inductive CompareIs (v : VcpuPtr) : Running → U64 → Prop where
  | start {s : State} {ops : List SchedOp} {w : Option VcpuPtr} {r : Running} (hs : Booted s)
      (h : vcpu_run w (s.schedule ops) = some r) : CompareIs v r (s.vcpu v).arch.tf.cntp_cval_el0
  | step {r r' : Running} {sl : Slice} {a : Option Access} {c : U64} (h : CompareIs v r c)
      (hs : ServedStep r sl a r') :
      CompareIs v r' (if r.vcpu = v then (r.writtenCompare sl a).getD c else c)

/-- Every run of `vcpu_run` has such a history. -/
theorem reachable_compareIs {r : Running} (hr : Reachable r) (v : VcpuPtr) : ∃ c, CompareIs v r c := by
  induction hr with
  | start hs h => exact ⟨_, .start hs h⟩
  | step hr h ih =>
    obtain ⟨c, hc⟩ := ih
    exact ⟨_, hc.step (step_served (reachable_inv hr) h)⟩

theorem CompareIs.inv {v : VcpuPtr} {r : Running} {c : U64} (h : CompareIs v r c) :
    RunInv r ∧ Entered r := by
  induction h with
  | start hs h => exact ⟨start_inv hs h, start_entered h⟩
  | step _ hs ih => exact ⟨hs.inv ih.1, hs.entered ih.1⟩

/-! ## What one trap does to the compare value -/

section Step

variable {r r' : Running} {sl : Slice} {a : Option Access} {s s' : State} {p : VcpuPtr}

theorem setGpr_cntp_cval (rt : U32) (v : U64) :
    ((s.setGpr p rt v).vcpu p).arch.tf.cntp_cval_el0 = (s.vcpu p).arch.tf.cntp_cval_el0 := by
  unfold State.setGpr
  split
  · rw [onTf_tf]
  · rfl

/-- Every branch of the emulation keeps the compare value but the two that write it. -/
theorem emulate_timer_cntp_cval (hs : TimerSync s.m (s.vcpu p).arch) (reg : TimerReg) (is_read : Bool)
    (rt : U32) (virt_now : U64) :
    ((emulate_timer p reg is_read rt virt_now s).vcpu p).arch.tf.cntp_cval_el0 =
      match reg, is_read with
      | .CNTP_CVAL_EL0, false => s.gpr p rt
      | .CNTP_TVAL_EL0, false => virt_now + sext32 (s.gpr p rt)
      | _, _ => (s.vcpu p).arch.tf.cntp_cval_el0 := by
  cases is_read with
  | true =>
    cases reg with
    | CNTPCT_EL0 | CNTVCT_EL0 | CNTP_TVAL_EL0 => exact setGpr_cntp_cval _ _
    | CNTP_CVAL_EL0 =>
      refine (setGpr_cntp_cval _ _).trans ?_
      rw [onTf_tf]
      exact hs.cntp_cval.symm
    | CNTP_CTL_EL0 | CNTV_CTL_EL0 =>
      refine (setGpr_cntp_cval _ _).trans ?_
      rw [onTf_tf]
      rfl
    | CNTV_CVAL_EL0 | CNTV_TVAL_EL0 =>
      refine (setGpr_cntp_cval _ _).trans ?_
      rw [onTf_tf]
  | false =>
    cases reg with
    | CNTPCT_EL0 | CNTVCT_EL0 => rfl
    | CNTP_CVAL_EL0 | CNTP_CTL_EL0 | CNTP_TVAL_EL0 | CNTV_CVAL_EL0 | CNTV_CTL_EL0 | CNTV_TVAL_EL0 =>
      simp only [emulate_timer, State.msr, State.onMachine_vcpu, onTf_tf]

/-- The save brings back the compare value that the entry loaded: the offset has not changed and the
guest cannot write the register. -/
theorem trapped_cntp_cval (hr : RunInv r) (he : Entered r) (sl : Slice) :
    ((r.trapped sl).vcpu r.vcpu).arch.tf.cntp_cval_el0 =
      (r.st.vcpu r.vcpu).arch.tf.cntp_cval_el0 := by
  have hcval : (r.exitMachine sl).sys .CNTP_CVAL_EL0 = r.st.m.sys .CNTP_CVAL_EL0 :=
    exitMachine_sys r sl .CNTP_CVAL_EL0
  have hoff : (r.exitMachine sl).sys .CNTVOFF_EL2 = r.st.m.sys .CNTVOFF_EL2 :=
    exitMachine_sys r sl .CNTVOFF_EL2
  rw [trapped_arch hr.latch, el2_vector_save_eq]
  calc (r.exitMachine sl).sys .CNTP_CVAL_EL0 + (r.exitMachine sl).sys .CNTVOFF_EL2
      = r.st.m.sys .CNTP_CVAL_EL0 + r.st.m.sys .CNTVOFF_EL2 := by rw [hcval, hoff]
    _ = (r.st.vcpu r.vcpu).arch.tf.cntp_cval_el0 := by
        rw [he.loaded.cntp_cval, BitVec.sub_add_cancel]

theorem trapped_gpr (hr : RunInv r) (sl : Slice) (rt : U32) :
    (r.trapped sl).gpr r.vcpu rt = sl.gpr rt := by
  unfold State.gpr Slice.gpr
  rw [trapped_arch hr.latch, el2_vector_save_eq, exitMachine_x]

theorem Served.cntp_cval (hr : RunInv r) (he : Entered r) (h : Served r sl a s') :
    (s'.vcpu r.vcpu).arch.tf.cntp_cval_el0 =
      (r.writtenCompare sl a).getD (r.st.vcpu r.vcpu).arch.tf.cntp_cval_el0 := by
  rw [← trapped_cntp_cval hr he sl]
  have hsync := trapped_sync hr sl
  cases h with
  | access a =>
    obtain ⟨reg, is_read, rt⟩ := a
    have hs : TimerSync (r.trapped sl).elapse.m ((r.trapped sl).elapse.vcpu r.vcpu).arch :=
      ⟨hsync.1, hsync.2, hsync.3, hsync.4⟩
    have hgpr : (r.trapped sl).elapse.gpr r.vcpu rt = sl.gpr rt := trapped_gpr hr sl rt
    have hnow : (r.trapped sl).elapse.m.cntvct = (r.exitMachine sl).elapse.cntvct := by
      rw [State.elapse, State.onMachine_m, trapped_m hr.latch]
    have hadv : ((r.emulated sl (reg, is_read, rt)).vcpu r.vcpu).arch.tf.cntp_cval_el0 =
        ((emulate_timer r.vcpu reg is_read rt (r.trapped sl).elapse.m.cntvct
          (r.trapped sl).elapse).vcpu r.vcpu).arch.tf.cntp_cval_el0 := by
      rw [Running.emulated, advance_guest_elr, onTf_tf]
      rfl
    rw [hadv, emulate_timer_cntp_cval hs, hgpr, hnow]
    cases reg <;> cases is_read <;> rfl
  | other h hn =>
    have hw : ∀ reg, ¬ TimerWrite (r.trapEsr sl) reg := by
      rintro reg ⟨rt, ha⟩
      cases hn.symm.trans ha
    have hk := el2_exception_common_kept (trapped_coherent hr sl).current
      ((handle_eq hr.latch).symm.trans h) hsync
    exact hk.cntp_cval (hw _) (hw _)

theorem ServedStep.cntp_cval (hr : RunInv r) (he : Entered r) (h : ServedStep r sl a r') :
    (r'.st.vcpu r.vcpu).arch.tf.cntp_cval_el0 =
      (r.writtenCompare sl a).getD (r.st.vcpu r.vcpu).arch.tf.cntp_cval_el0 := by
  obtain ⟨s', hs', hr'⟩ := h
  rw [resume_tf hr (hs'.frame hr) hr', hs'.cntp_cval hr he]

theorem ServedStep.tf_of_ne (hr : RunInv r) (h : ServedStep r sl a r') (hp : p ≠ r.vcpu) :
    (r'.st.vcpu p).arch.tf = (r.st.vcpu p).arch.tf := by
  obtain ⟨s', hs', hr'⟩ := h
  have hf := hs'.frame hr
  rw [resume_tf hr hf hr', hf.others p hp, trapped_vcpu_of_ne hr.latch hp]

end Step

/-! ## Last write wins -/

theorem start_tf {s : State} {ops : List SchedOp} {w : Option VcpuPtr} {r : Running}
    (h : vcpu_run w (s.schedule ops) = some r) (p : VcpuPtr) :
    (r.st.vcpu p).arch.tf = (s.vcpu p).arch.tf := by
  unfold vcpu_run at h
  cases w with
  | none => cases h
  | some w =>
    simp only [loop_head] at h
    split at h
    · cases h
    · cases h
      rw [world_switch_tf]
      rfl

/-- At every entry of every run the frame of `v` holds the value that `v` set last. -/
theorem CompareIs.frame {v : VcpuPtr} {r : Running} {c : U64} (h : CompareIs v r c) :
    (r.st.vcpu v).arch.tf.cntp_cval_el0 = c := by
  induction h with
  | start _ h => rw [start_tf h]
  | @step r r' sl a c hc hs ih =>
    obtain ⟨hi, he⟩ := hc.inv
    by_cases hv : r.vcpu = v
    · rw [if_pos hv, ← ih]
      subst hv
      exact hs.cntp_cval hi he
    · rw [if_neg hv, hs.tf_of_ne hi (Ne.symm hv), ih]

/-- A served read of `CNTP_CVAL_EL0` puts the compare value of the frame into the target register. -/
theorem emulated_read_cntp_cval {r : Running} (hr : RunInv r) (he : Entered r) (sl : Slice) {rt : U32}
    {i : Fin 31} (hi : rt.toNat = i.val) :
    ((r.emulated sl (.CNTP_CVAL_EL0, true, rt)).vcpu r.vcpu).arch.tf.regs i =
      (r.st.vcpu r.vcpu).arch.tf.cntp_cval_el0 := by
  have hlt : rt.toNat < 31 := hi ▸ i.isLt
  have hidx : (⟨rt.toNat, hlt⟩ : Fin 31) = i := Fin.ext hi
  rw [← trapped_cntp_cval hr he sl, (trapped_sync hr sl).cntp_cval]
  simp only [Running.emulated, advance_guest_elr, emulate_timer, State.setGpr, hlt, dif_pos, onTf_tf,
    State.msr, State.onMachine_vcpu, hidx, Function.update_self]
  rfl

/-- In every run, a read of `CNTP_CVAL_EL0` that is served for `v` returns the value that `v`'s last
served write has set, and the handler serves every access that it decodes as such a read. -/
theorem cntp_cval_read_last_write {v : VcpuPtr} {r : Running} {c : U64} (h : CompareIs v r c)
    (hv : r.vcpu = v) (sl : Slice) (rt : U32) :
    (∀ i : Fin 31, rt.toNat = i.val →
      ((r.emulated sl (.CNTP_CVAL_EL0, true, rt)).vcpu v).arch.tf.regs i = c) ∧
    (timerAccess (r.trapEsr sl) = some (.CNTP_CVAL_EL0, true, rt) →
      r.handle sl = .returned (r.emulated sl (.CNTP_CVAL_EL0, true, rt))) := by
  obtain ⟨hi, he⟩ := h.inv
  subst hv
  refine ⟨?_, handle_of_access hi⟩
  intro i hri
  rw [emulated_read_cntp_cval hi he sl hri, h.frame]

/-- vCPU `0` of the cold machine sets its compare value from `x5` and reads it back into `x3`. -/
theorem cntp_cval_read_cold :
    ∃ r', CompareIs 0 r' 77 ∧
      ((r'.emulated (coldSlice 0x62000000) (.CNTP_CVAL_EL0, true, 3)).vcpu 0).arch.tf.regs 3 = 77 := by
  let sl : Slice := { coldSlice 0x62000000 with x := Function.update (fun _ => 0) 5 77 }
  obtain ⟨r', hr', hv⟩ : ∃ r', coldEntry.resume (coldEntry.emulated sl (.CNTP_CVAL_EL0, false, 5)) =
      some r' ∧ r'.vcpu = 0 := Option.map_eq_some_iff.mp (by decide)
  obtain ⟨c, hc⟩ := reachable_compareIs coldEntry_reachable 0
  have hset : CompareIs 0 r' 77 := hc.step ⟨_, .access _, hr'⟩
  exact ⟨r', hset, (cntp_cval_read_last_write hset hv (coldSlice 0x62000000) 3).1 3 rfl⟩

/-! ## The deadline -/

/-- The hardware deadline is the one the guest asked for, at whatever physical count they are compared,
exactly when the offset programmed at the entry is sound: the conversion of the compare value uses the
same sign as the offset itself, which is opposite to the hardware's. -/
theorem cntp_deadline_iff {v : VcpuPtr} {r : Running} {c : U64} (h : CompareIs v r c)
    (hv : r.vcpu = v) (phys : U64) :
    r.st.m.sys .CNTP_CVAL_EL0 - phys = c - r.st.m.cntvctAt phys ↔
      OffsetSound r.st.m.cntpct (r.st.vcpu v).arch.cntvct_el0 := by
  obtain ⟨hi, he⟩ := h.inv
  subst hv
  have hdist : r.st.m.sys .CNTP_CVAL_EL0 - phys = c - r.st.m.cntvctAt phys +
      2 * (r.st.m.cntpct - (r.st.vcpu r.vcpu).arch.cntvct_el0) := by
    rw [he.loaded.cntp_cval, h.frame, Machine.cntvctAt, hi.offset]
    ring
  rw [hdist, OffsetSound, add_eq_left]

/-- The first entry of the cold machine, where no time has passed since the boot. -/
theorem cntp_deadline_cold :
    ∃ c, CompareIs 0 coldEntry c ∧
      (coldEntry.st.m.sys .CNTP_CVAL_EL0 - 5 = c - coldEntry.st.m.cntvctAt 5 ↔
        OffsetSound coldEntry.st.m.cntpct (coldEntry.st.vcpu 0).arch.cntvct_el0) := by
  obtain ⟨c, hc⟩ := reachable_compareIs coldEntry_reachable 0
  exact ⟨c, hc, cntp_deadline_iff hc rfl 5⟩

/-- When vCPU `1` of the cold machine is first entered, the physical count has just reached its compare
value for the hardware, while the guest's own counter is thirty-two ticks past it. -/
theorem cntp_deadline_missed :
    ¬ ∀ (v : VcpuPtr) (r : Running) (c phys : U64), CompareIs v r c → r.vcpu = v →
      r.st.m.sys .CNTP_CVAL_EL0 - phys = c - r.st.m.cntvctAt phys := by
  intro hall
  have hrun : (coldRun [coldSlice 0x04000000]).map (fun r =>
      (r.vcpu, r.st.m.sys .CNTP_CVAL_EL0 - r.st.m.cntpct,
        (r.st.vcpu 1).arch.tf.cntp_cval_el0 - r.st.m.cntvctAt r.st.m.cntpct)) =
      some (1, 0, -32) := by decide
  obtain ⟨r, hr, hobs⟩ := Option.map_eq_some_iff.mp hrun
  simp only [Prod.mk.injEq] at hobs
  obtain ⟨hv, hhw, hguest⟩ := hobs
  obtain ⟨c, hc⟩ := reachable_compareIs (coldRun_reachable hr) 1
  have h := hall 1 r c r.st.m.cntpct hc hv
  rw [hhw, ← hc.frame, hguest] at h
  exact absurd h (by decide)

end Schism
