import Schism.Run
import Schism.Proofs.SchedProofs
import Schism.Proofs.TrapProofs
import Schism.Proofs.WorldSwitchProofs

/-!
# One step of a run, and the invariant of all runs

`step_cases` says once what EL2 does between a trap and the next guest entry: it re-enters the same
vCPU from the loop of `vcpu_run`, or it yields to the next one. `RunInv` is the coherence of the
globals and the hardware at every guest entry.
-/

namespace Schism

/-! ## At the trap -/

section Trapped

variable {r : Running} {sl : Slice}

/-- What a slice leaves behind, apart from the system registers. -/
theorem exitMachine_eq (r : Running) (sl : Slice) : r.exitMachine sl = { r.st.m with
    x := sl.x
    sys := (r.exitMachine sl).sys
    q := sl.q
    mem := sl.mem
    instant := r.st.m.instant + 1 } := by
  simp only [Running.exitMachine, Machine.exitGuest]
  cases sl.exit <;> rfl

theorem exitMachine_clock (r : Running) (sl : Slice) : (r.exitMachine sl).clock = r.st.m.clock := by
  rw [exitMachine_eq]

theorem exitMachine_instant (r : Running) (sl : Slice) :
    (r.exitMachine sl).instant = r.st.m.instant + 1 := by
  rw [exitMachine_eq]

theorem exitMachine_x (r : Running) (sl : Slice) : (r.exitMachine sl).x = sl.x := by
  rw [exitMachine_eq]

theorem exitMachine_q (r : Running) (sl : Slice) : (r.exitMachine sl).q = sl.q := by
  rw [exitMachine_eq]

theorem exitMachine_mem (r : Running) (sl : Slice) : (r.exitMachine sl).mem = sl.mem := by
  rw [exitMachine_eq]

theorem exitMachine_el2Readable (r : Running) (sl : Slice) :
    (r.exitMachine sl).el2Readable = r.st.m.el2Readable := by
  rw [exitMachine_eq]

/-- The registers outside the syndrome that the guest cannot write keep their value. -/
theorem exitMachine_sys (r : Running) (sl : Slice) (reg : SysReg) :
    (r.exitMachine sl).sys reg = match reg with
      | .ELR_EL2 => sl.pc
      | .SPSR_EL2 => sl.pstate
      | .ESR_EL2 => match sl.exit with
        | .sync esr _ | .serror esr => esr
        | _ => r.st.m.sys .ESR_EL2
      | .FAR_EL2 => match sl.exit with
        | .sync _ far => far
        | _ => r.st.m.sys .FAR_EL2
      | reg => if reg.guestWritable then sl.sys reg else r.st.m.sys reg := by
  cases h : sl.exit <;> cases reg <;>
    simp [Running.exitMachine, Machine.exitGuest, Machine.setSyndrome, h, Machine.msr_sys,
      SysReg.guestWritable]

theorem trapped_eq (hl : r.st.current_trapframe = some r.vcpu) :
    r.trapped sl = { (({ r.st with m := r.exitMachine sl } : State).onTf r.vcpu
      (el2_vector_save sl.exit.code (r.exitMachine sl))) with current_trapframe := none } := by
  simp only [Running.trapped, el2_vector_common, hl]

theorem trapped_m (hl : r.st.current_trapframe = some r.vcpu) :
    (r.trapped sl).m = r.exitMachine sl := by
  rw [trapped_eq hl]; rfl

theorem trapped_sched (hl : r.st.current_trapframe = some r.vcpu) :
    (r.trapped sl).sched = r.st.sched := by
  rw [trapped_eq hl]; rfl

theorem trapped_current_trapframe (hl : r.st.current_trapframe = some r.vcpu) :
    (r.trapped sl).current_trapframe = none := by
  rw [trapped_eq hl]

theorem trapped_lr_cached (hl : r.st.current_trapframe = some r.vcpu) :
    (r.trapped sl).vgic_lr_cached = r.st.vgic_lr_cached := by
  rw [trapped_eq hl]; rfl

theorem trapped_guest_el1_vectors (hl : r.st.current_trapframe = some r.vcpu) :
    (r.trapped sl).guest_el1_vectors = r.st.guest_el1_vectors := by
  rw [trapped_eq hl]; rfl

theorem trapped_vcpu (hl : r.st.current_trapframe = some r.vcpu) :
    (r.trapped sl).vcpu =
      (r.st.onTf r.vcpu (el2_vector_save sl.exit.code (r.exitMachine sl))).vcpu := by
  rw [trapped_eq hl]; rfl

theorem trapped_vcpu_of_ne (hl : r.st.current_trapframe = some r.vcpu) {q : VcpuPtr}
    (hq : q ≠ r.vcpu) : (r.trapped sl).vcpu q = r.st.vcpu q := by
  rw [trapped_vcpu hl]
  exact State.onArch_vcpu_of_ne _ _ hq

theorem trapped_request_yield (hl : r.st.current_trapframe = some r.vcpu) (q : VcpuPtr) :
    ((r.trapped sl).vcpu q).request_yield = (r.st.vcpu q).request_yield := by
  rw [trapped_vcpu hl]
  exact State.onArch_request_yield _ _ _ _

/-- The save path fills the frame of the vCPU that trapped. -/
theorem trapped_arch (hl : r.st.current_trapframe = some r.vcpu) :
    ((r.trapped sl).vcpu r.vcpu).arch = { (r.st.vcpu r.vcpu).arch with
      tf := el2_vector_save sl.exit.code (r.exitMachine sl) (r.st.vcpu r.vcpu).arch.tf } := by
  rw [trapped_vcpu hl]
  exact State.onArch_arch_self _ _ _

/-- The syndrome that the handler sees. -/
def Running.trapEsr (r : Running) (sl : Slice) : U64 := (r.exitMachine sl).sys .ESR_EL2

theorem handle_eq (hl : r.st.current_trapframe = some r.vcpu) :
    r.handle sl = el2_exception_common (r.trapEsr sl) sl.pc sl.pstate
      ((r.exitMachine sl).sys .FAR_EL2) sl.exit.code (r.trapped sl) := by
  have hpc : (r.exitMachine sl).sys .ELR_EL2 = sl.pc := exitMachine_sys r sl _
  have hps : (r.exitMachine sl).sys .SPSR_EL2 = sl.pstate := exitMachine_sys r sl _
  simp only [Running.handle, trapped_m hl, Machine.mrs, hpc, hps, Running.trapEsr]

end Trapped

/-! ## From the trap to the next entry -/

section Step

variable {r r' : Running} {sl : Slice}

/-- The state in which the loop of `vcpu_run` re-enters the vCPU: a request that the loop body saw is
cleared, one made inside `vcpu_scheduler_yield`'s entry is not seen. -/
def Running.settle (r : Running) (s : State) : State :=
  match r.site with
  | .loop => (world_switch_return s).setRequestYield r.vcpu false
  | .yield => world_switch_return s

/-- The state in which `vcpu_scheduler_yield` calls `world_switch`. -/
def Running.yieldState (r : Running) (s : State) (next : ℕ) (target : VcpuPtr) : State :=
  let s := (world_switch_return s).setRequestYield r.vcpu false
  { s with sched := { s.sched with current := some target, idx := next } }

theorem setRequestYield_false_of_false {s : State} {p : VcpuPtr}
    (h : (s.vcpu p).request_yield = false) : s.setRequestYield p false = s := by
  have hv : ({ s.vcpu p with request_yield := false } : Vcpu) = s.vcpu p := by rw [← h]
  simp only [State.setRequestYield, hv, Function.update_eq_self]

/-- The two ways from a served trap to the next guest entry. -/
theorem resume_cases {s' : State} (hc : r.st.sched.current = some r.vcpu)
    (hsched : s'.sched = r.st.sched) (h : r.resume s' = some r') :
    ((r.site = .yield ∨ (s'.vcpu r.vcpu).request_yield = false ∨
        r.st.sched.yieldTarget = none) ∧
      r' = ⟨world_switch none r.vcpu (r.settle s'), r.vcpu, .loop⟩) ∨
    (r.site = .loop ∧ (s'.vcpu r.vcpu).request_yield = true ∧
      ∃ next target, r.st.sched.yieldTarget = some (next, target) ∧
        r' = ⟨world_switch (some r.vcpu) target (r.yieldState s' next target), target, .yield⟩) := by
  have hcur : s'.sched.current = some r.vcpu := by rw [hsched, hc]
  unfold Running.resume at h
  cases hsite : r.site with
  | yield =>
    simp only [hsite, loop_head, world_switch_return, State.onMachine_sched, hcur] at h
    refine Or.inl ⟨Or.inl rfl, ?_⟩
    simp only [Running.settle, hsite]
    exact (Option.some.inj h).symm
  | loop =>
    have hsettle : r.settle s' = (world_switch_return s').setRequestYield r.vcpu false := by
      simp only [Running.settle, hsite]
    simp only [hsite, loop_tail] at h
    cases hy : (s'.vcpu r.vcpu).request_yield with
    | false =>
      have hy' : ((world_switch_return s').vcpu r.vcpu).request_yield = false := hy
      rw [hy'] at h
      simp only [Bool.false_eq_true, if_false, loop_head, world_switch_return,
        State.onMachine_sched, hcur] at h
      refine Or.inl ⟨Or.inr (Or.inl rfl), ?_⟩
      rw [hsettle, setRequestYield_false_of_false hy']
      exact (Option.some.inj h).symm
    | true =>
      have hy' : ((world_switch_return s').vcpu r.vcpu).request_yield = true := hy
      rw [hy'] at h
      simp only [if_true, vcpu_scheduler_yield, world_switch_return, State.setRequestYield_sched,
        State.onMachine_sched, hsched] at h
      cases ht : r.st.sched.yieldTarget with
      | none =>
        simp only [ht, loop_head, State.setRequestYield_sched, State.onMachine_sched, hcur] at h
        refine Or.inl ⟨Or.inr (Or.inr rfl), ?_⟩
        rw [hsettle]
        exact (Option.some.inj h).symm
      | some nt =>
        obtain ⟨next, target⟩ := nt
        simp only [ht, hc] at h
        refine Or.inr ⟨rfl, rfl, next, target, rfl, ?_⟩
        rw [← Option.some.inj h]
        simp only [Running.yieldState, world_switch_return, State.setRequestYield_sched,
          State.onMachine_sched, hsched]

/-- A step is a trap that the handler serves, and the resumption of `world_switch`'s caller. -/
theorem step_eq_some (h : r.step sl = some r') :
    ∃ s', r.handle sl = .returned s' ∧ r.resume s' = some r' := by
  unfold Running.step at h
  split at h
  · cases h
  · rename_i s' hs'
    exact ⟨s', hs', h⟩

/-- The two ways from a trap to the next guest entry. -/
theorem step_cases (hl : r.st.current_trapframe = some r.vcpu)
    (hc : r.st.sched.current = some r.vcpu) (h : r.step sl = some r') :
    ∃ s', r.handle sl = .returned s' ∧ HandlerFrame r.vcpu (r.trapped sl) s' ∧
      (((r.site = .yield ∨ (s'.vcpu r.vcpu).request_yield = false ∨
          r.st.sched.yieldTarget = none) ∧
        r' = ⟨world_switch none r.vcpu (r.settle s'), r.vcpu, .loop⟩) ∨
      (r.site = .loop ∧ (s'.vcpu r.vcpu).request_yield = true ∧
        ∃ next target, r.st.sched.yieldTarget = some (next, target) ∧
          r' = ⟨world_switch (some r.vcpu) target (r.yieldState s' next target), target, .yield⟩)) := by
  obtain ⟨s', hs', hr'⟩ := step_eq_some h
  have hf : HandlerFrame r.vcpu (r.trapped sl) s' :=
    el2_exception_common_frame ((congrArg Sched.current (trapped_sched hl)).trans hc)
      ((handle_eq hl).symm.trans hs')
  exact ⟨s', hs', hf, resume_cases hc (hf.sched.trans (trapped_sched hl)) hr'⟩

end Step

/-! ## The invariant -/

/-- What holds whenever a guest is entered. -/
structure RunInv (r : Running) : Prop where
  sched : SchedInv r.st.sched
  current : r.st.sched.current = some r.vcpu
  latch : r.st.current_trapframe = some r.vcpu
  vttbr : r.st.m.sys .VTTBR_EL2 = (r.st.vcpu r.vcpu).arch.vttbr_el2
  cntvoff : r.st.m.sys .CNTVOFF_EL2 = (r.st.vcpu r.vcpu).arch.cntvoff_el2
  /-- The offset is the snapshot less the physical count read at the entry. -/
  offset : r.st.m.sys .CNTVOFF_EL2 = (r.st.vcpu r.vcpu).arch.cntvct_el0 - r.st.m.cntpct
  requests : ∀ p, (r.st.vcpu p).request_yield = true → p = r.vcpu
  /-- An entry made by a yield starts without a request. -/
  fresh : r.site = .yield → (r.st.vcpu r.vcpu).request_yield = false
  lr_count : r.st.vgic_lr_cached = vgic_detect_lr_count r.st.m

/-- Every call of `world_switch` for the scheduled vCPU establishes the invariant. -/
theorem RunInv.of_switch {src : Option VcpuPtr} {target : VcpuPtr} {s : State} {site : CallSite}
    (hsrc : src ≠ some target) (hsched : SchedInv s.sched) (hcur : s.sched.current = some target)
    (hreq : ∀ p, (s.vcpu p).request_yield = true → p = target)
    (hfresh : site = .yield → (s.vcpu target).request_yield = false) (hlr : LrCacheOk s) :
    RunInv ⟨world_switch src target s, target, site⟩ where
  sched := by rw [world_switch_sched]; exact hsched
  current := by rw [world_switch_sched]; exact hcur
  latch := world_switch_current_trapframe s target src
  vttbr := (world_switch_sys s hsrc .VTTBR_EL2).trans (world_switch_vttbr s target src target).symm
  cntvoff := by rw [world_switch_arch_target]
  offset := by
    have hct : ((world_switch src target s).vcpu target).arch.cntvct_el0 =
        (s.vcpu target).arch.cntvct_el0 := by rw [world_switch_cntvct, if_neg hsrc]
    rw [hct]
    exact world_switch_sys s hsrc .CNTVOFF_EL2
  requests p hp := hreq p (by rwa [world_switch_request_yield] at hp)
  fresh h := by rw [world_switch_request_yield]; exact hfresh h
  lr_count := by
    have hvtr : (world_switch src target s).m.sys .ICH_VTR = s.m.sys .ICH_VTR :=
      world_switch_sys s hsrc .ICH_VTR
    rw [world_switch_vgic_lr_cached, vgic_lr_count_eq hlr, vgic_detect_lr_count_eq,
      vgic_detect_lr_count_eq, hvtr]

theorem start_inv {s : State} {ops : List SchedOp} {v : Option VcpuPtr} {r : Running} (hs : Booted s)
    (h : vcpu_run v (s.schedule ops) = some r) : RunInv r := by
  unfold vcpu_run at h
  cases v with
  | none => cases h
  | some p =>
    have hsched : SchedInv ((s.schedule ops).sched.vcpu_scheduler_set_current (some p)) := by
      refine SchedInv.set_current ?_ _
      simp only [State.schedule, hs.sched]
      exact SchedInv.empty.applyAll ops
    have hreq : ∀ q, ((s.schedule ops).vcpu q).request_yield = false := hs.no_request
    simp only [loop_head] at h
    split at h
    · cases h
    · rename_i current hc
      cases h
      exact RunInv.of_switch (by simp) hsched hc
        (fun q hq => Bool.noConfusion ((hreq q).symm.trans hq)) (by simp) (Or.inl hs.lr_count)

section Step

variable {r r' : Running} {sl : Slice} {s' : State}

theorem handle_frame (hr : RunInv r) (h : r.handle sl = .returned s') :
    HandlerFrame r.vcpu (r.trapped sl) s' :=
  el2_exception_common_frame ((congrArg Sched.current (trapped_sched hr.latch)).trans hr.current)
    ((handle_eq hr.latch).symm.trans h)

theorem frame_sched (hr : RunInv r) (hf : HandlerFrame r.vcpu (r.trapped sl) s') :
    s'.sched = r.st.sched :=
  hf.sched.trans (trapped_sched hr.latch)

theorem frame_requests (hr : RunInv r) (hf : HandlerFrame r.vcpu (r.trapped sl) s') (p : VcpuPtr)
    (hp : (s'.vcpu p).request_yield = true) : p = r.vcpu := by
  by_contra hne
  rw [hf.others p hne, trapped_request_yield hr.latch] at hp
  exact hne (hr.requests p hp)

theorem frame_vtr (hr : RunInv r) (hf : HandlerFrame r.vcpu (r.trapped sl) s') :
    s'.m.sys .ICH_VTR = r.st.m.sys .ICH_VTR := by
  rw [hf.sys _ rfl, trapped_m hr.latch]
  exact exitMachine_sys r sl .ICH_VTR

theorem frame_lr_cache (hr : RunInv r) (hf : HandlerFrame r.vcpu (r.trapped sl) s') :
    LrCacheOk s' := by
  right
  rw [hf.lr_cached, trapped_lr_cached hr.latch, hr.lr_count, vgic_detect_lr_count_eq,
    vgic_detect_lr_count_eq, frame_vtr hr hf]

theorem handle_sched (hr : RunInv r) (h : r.handle sl = .returned s') : s'.sched = r.st.sched :=
  frame_sched hr (handle_frame hr h)

theorem handle_requests (hr : RunInv r) (h : r.handle sl = .returned s') (p : VcpuPtr)
    (hp : (s'.vcpu p).request_yield = true) : p = r.vcpu :=
  frame_requests hr (handle_frame hr h) p hp

theorem handle_lr_cache (hr : RunInv r) (h : r.handle sl = .returned s') : LrCacheOk s' :=
  frame_lr_cache hr (handle_frame hr h)

theorem settle_sched (r : Running) (s : State) : (r.settle s).sched = s.sched := by
  unfold Running.settle
  split <;> rfl

theorem settle_arch (r : Running) (s : State) (p : VcpuPtr) :
    ((r.settle s).vcpu p).arch = (s.vcpu p).arch := by
  unfold Running.settle
  split
  · exact State.setRequestYield_arch _ _ _ _
  · rfl

theorem yieldState_arch (r : Running) (s : State) (next : ℕ) (target p : VcpuPtr) :
    ((r.yieldState s next target).vcpu p).arch = (s.vcpu p).arch :=
  State.setRequestYield_arch _ _ _ _

theorem settle_m (r : Running) (s : State) : (r.settle s).m = (world_switch_return s).m := by
  unfold Running.settle
  split <;> rfl

theorem settle_lr_cached (r : Running) (s : State) :
    (r.settle s).vgic_lr_cached = s.vgic_lr_cached := by
  unfold Running.settle
  split <;> rfl

theorem settle_request_yield_of_ne (r : Running) (s : State) {p : VcpuPtr} (hp : p ≠ r.vcpu) :
    ((r.settle s).vcpu p).request_yield = (s.vcpu p).request_yield := by
  unfold Running.settle
  split
  · rw [State.setRequestYield_vcpu_of_ne _ _ hp]; rfl
  · rfl

/-- Whatever served the trap within the frame of the handler, the next entry keeps the invariant. -/
theorem resume_inv (hr : RunInv r) (hf : HandlerFrame r.vcpu (r.trapped sl) s')
    (h : r.resume s' = some r') : RunInv r' := by
  have hsched := frame_sched hr hf
  have hreq := frame_requests hr hf
  have hlr := frame_lr_cache hr hf
  rcases resume_cases hr.current hsched h with ⟨-, rfl⟩ | ⟨-, -, next, target, hy, rfl⟩
  · refine RunInv.of_switch (by simp) ?_ ?_ ?_ (by simp) ?_
    · rw [settle_sched, hsched]; exact hr.sched
    · rw [settle_sched, hsched]; exact hr.current
    · intro p hp
      by_contra hne
      rw [settle_request_yield_of_ne r s' hne] at hp
      exact hne (hreq p hp)
    · rw [LrCacheOk, settle_lr_cached, settle_m]
      exact hlr
  · obtain ⟨-, -, -, hne⟩ := yieldTarget_some hy
    have hne' : target ≠ r.vcpu := fun he => hne (by rw [hr.current, he])
    have hclear : ∀ p, ((r.yieldState s' next target).vcpu p).request_yield = false := by
      intro p
      by_cases hp : p = r.vcpu
      · subst hp
        exact State.setRequestYield_self _ _ _
      · have : (r.yieldState s' next target).vcpu p = s'.vcpu p :=
          State.setRequestYield_vcpu_of_ne _ _ hp
        rw [this]
        exact Bool.eq_false_iff.mpr fun ht => hp (hreq p ht)
    refine RunInv.of_switch (fun he => hne' (Option.some.inj he).symm) ?_ rfl ?_ ?_ hlr
    · have : SchedInv s'.sched := by rw [hsched]; exact hr.sched
      exact this.switch_to (by rw [hsched]; exact hy)
    · intro p hp
      rw [hclear p] at hp
      cases hp
    · exact fun _ => hclear target

theorem step_inv (hr : RunInv r) (h : r.step sl = some r') : RunInv r' := by
  obtain ⟨s', hs', hr'⟩ := step_eq_some h
  exact resume_inv hr (handle_frame hr hs') hr'

/-- The invariant holds at every guest entry of every run. -/
theorem reachable_inv (h : Reachable r) : RunInv r := by
  induction h with
  | start hs h => exact start_inv hs h
  | step _ h ih => exact step_inv ih h

/-- The entry is the end of a call of `world_switch` for a vCPU other than the one left. -/
def Entered (r : Running) : Prop := ∃ src s, src ≠ some r.vcpu ∧ r.st = world_switch src r.vcpu s

theorem start_entered {s : State} {ops : List SchedOp} {v : Option VcpuPtr}
    (h : vcpu_run v (s.schedule ops) = some r) : Entered r := by
  unfold vcpu_run at h
  cases v with
  | none => cases h
  | some p =>
    simp only [loop_head] at h
    split at h
    · cases h
    · cases h
      exact ⟨none, _, by simp, rfl⟩

theorem resume_entered (hr : RunInv r) (hf : HandlerFrame r.vcpu (r.trapped sl) s')
    (h : r.resume s' = some r') : Entered r' := by
  rcases resume_cases hr.current (frame_sched hr hf) h with
    ⟨-, rfl⟩ | ⟨-, -, next, target, hy, rfl⟩
  · exact ⟨none, _, by simp, rfl⟩
  · refine ⟨some r.vcpu, _, ?_, rfl⟩
    intro he
    obtain ⟨-, -, -, hne⟩ := yieldTarget_some hy
    exact hne (by rw [hr.current, he])

theorem reachable_entered (h : Reachable r) : Entered r := by
  cases h with
  | start _ h => exact start_entered h
  | @step r₀ _ sl hr h =>
    have hi := reachable_inv hr
    obtain ⟨s', hs', hr'⟩ := step_eq_some h
    exact resume_entered hi (handle_frame hi hs') hr'

/-- The slice ends in a switch to another vCPU: the loop of `vcpu_run` finds a request and a second
vCPU. -/
def Running.Yields (r : Running) (sl : Slice) : Prop :=
  r.site = .loop ∧ (esr_ec (r.trapEsr sl) = 0x01 ∨ (r.st.vcpu r.vcpu).request_yield = true) ∧
    2 ≤ r.st.sched.len

instance (r : Running) (sl : Slice) : Decidable (r.Yields sl) :=
  inferInstanceAs (Decidable (_ ∧ _ ∧ _))

/-- The request flag when the handler returns. -/
theorem handle_request_yield (hr : RunInv r) (h : r.handle sl = .returned s') :
    (s'.vcpu r.vcpu).request_yield =
      (decide (esr_ec (r.trapEsr sl) = 0x01) || (r.st.vcpu r.vcpu).request_yield) := by
  have hcur : (r.trapped sl).sched.current = some r.vcpu := by
    rw [trapped_sched hr.latch, hr.current]
  rw [el2_exception_common_request_yield hcur ((handle_eq hr.latch).symm.trans h),
    trapped_request_yield hr.latch]

/-- The two ways from a trap to the next entry, told apart before the handler runs. -/
theorem step_yields (hr : RunInv r) (h : r.step sl = some r') :
    ∃ s', r.handle sl = .returned s' ∧
      ((¬ r.Yields sl ∧ r' = ⟨world_switch none r.vcpu (r.settle s'), r.vcpu, .loop⟩) ∨
      (r.Yields sl ∧ ∃ next target, r.st.sched.yieldTarget = some (next, target) ∧
        r' = ⟨world_switch (some r.vcpu) target (r.yieldState s' next target), target, .yield⟩)) := by
  obtain ⟨s', hs', -, hcase⟩ := step_cases hr.latch hr.current h
  have hreq := handle_request_yield hr hs'
  refine ⟨s', hs', ?_⟩
  rcases hcase with ⟨hno, he⟩ | ⟨hsite, hy, next, target, ht, he⟩
  · refine Or.inl ⟨?_, he⟩
    intro hyield
    obtain ⟨hsite, hor, hlen⟩ := hyield
    rcases hno with hsite' | hfalse | hnone
    · rw [hsite] at hsite'
      cases hsite'
    · rw [hreq, Bool.or_eq_false_iff, decide_eq_false_iff_not] at hfalse
      rcases hor with hec | hpend
      · exact hfalse.1 hec
      · rw [hfalse.2] at hpend
        cases hpend
    · have := hr.sched.yieldTarget_none_iff.mp hnone
      omega
  · rw [hreq, Bool.or_eq_true, decide_eq_true_eq] at hy
    exact Or.inr ⟨⟨hsite, hy, (yieldTarget_some ht).1⟩, next, target, ht, he⟩

/-! ## Frames along a run -/

/-- The frames at the next entry are those that the handler leaves. -/
theorem resume_tf (hr : RunInv r) (hf : HandlerFrame r.vcpu (r.trapped sl) s')
    (h : r.resume s' = some r') (p : VcpuPtr) : (r'.st.vcpu p).arch.tf = (s'.vcpu p).arch.tf := by
  rcases resume_cases hr.current (frame_sched hr hf) h with
    ⟨-, rfl⟩ | ⟨-, -, next, target, -, rfl⟩
  · rw [world_switch_tf, settle_arch]
  · rw [world_switch_tf, yieldState_arch]

/-- A step changes no frame but the one of the vCPU that trapped, which the handler leaves in `s'`. -/
theorem step_tf (hr : RunInv r) (h : r.step sl = some r') :
    ∃ s', r.handle sl = .returned s' ∧ ∀ p, (r'.st.vcpu p).arch.tf = (s'.vcpu p).arch.tf := by
  obtain ⟨s', hs', hr'⟩ := step_eq_some h
  exact ⟨s', hs', resume_tf hr (handle_frame hr hs') hr'⟩

theorem step_tf_of_ne (hr : RunInv r) (h : r.step sl = some r') {p : VcpuPtr} (hp : p ≠ r.vcpu) :
    (r'.st.vcpu p).arch.tf = (r.st.vcpu p).arch.tf := by
  obtain ⟨s', hs', ht⟩ := step_tf hr h
  rw [ht, (handle_frame hr hs').others p hp, trapped_vcpu_of_ne hr.latch hp]

/-- While other vCPUs run, nothing of `v` changes and the run stays within the reachable entries. -/
theorem avoiding_reachable {v : VcpuPtr} (hr : Reachable r)
    (h : Relation.ReflTransGen (StepAvoiding v) r r') : Reachable r' := by
  induction h with
  | refl => exact hr
  | tail _ hstep ih =>
    obtain ⟨-, sl, hs⟩ := hstep
    exact .step ih hs

theorem avoiding_tf {v : VcpuPtr} (hr : Reachable r)
    (h : Relation.ReflTransGen (StepAvoiding v) r r') :
    (r'.st.vcpu v).arch.tf = (r.st.vcpu v).arch.tf := by
  induction h with
  | refl => rfl
  | tail hpath hstep ih =>
    obtain ⟨hv, sl, hs⟩ := hstep
    rw [step_tf_of_ne (reachable_inv (avoiding_reachable hr hpath)) hs hv.symm, ih]

end Step

end Schism
