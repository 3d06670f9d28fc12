import Schism.Proofs.ContextProofs

/-!
# Virtual time

A vCPU's virtual counter is kept as a snapshot, `arch.cntvct_el0`, from which `world_switch` computes
the offset at every entry. The snapshot is taken when a yield leaves the vCPU and by the hypercall
that sets the virtual time; a re-entry from the loop of `vcpu_run` uses the one that is there.
-/

namespace Schism

namespace Running

variable (r : Running) (sl : Slice)

/-- The virtual time at which the slice ended, or the one the guest asked for. -/
def exitTime : U64 :=
  if IsTimeOverride (r.trapEsr sl) then sl.x 0 else (r.exitMachine sl).cntvct

/-- The physical count that `switch_out` finds when the slice ends in a yield: the exit was one
instant after the entry, the handler's reads follow, then the save. -/
def saveCount : U64 := r.st.m.clock (r.st.m.instant + 1 + handlerReads (r.trapEsr sl) + 1)

/-- The physical count from which a time override computes the offset. -/
def overrideCount : U64 := r.st.m.clock (r.st.m.instant + 1 + 1)

/-- The snapshot that the slice leaves in its vCPU. -/
def leftSnapshot : U64 :=
  if r.Yields sl then
    r.saveCount sl - (if IsTimeOverride (r.trapEsr sl) then sl.x 0 - r.overrideCount
      else (r.exitMachine sl).sys .CNTVOFF_EL2)
  else if IsTimeOverride (r.trapEsr sl) then sl.x 0
  else (r.st.vcpu r.vcpu).arch.cntvct_el0

/-- The snapshot after the slice is the virtual time at its end. A yield takes a new one, so no tick
may pass between the exit and the save (and a time override whose vCPU is switched out at once is
measured against the offset it has just set); a re-entry keeps the old one. -/
def SnapshotFresh : Prop :=
  if r.Yields sl then
    if IsTimeOverride (r.trapEsr sl) then
      r.saveCount sl + r.overrideCount = sl.x 0 + sl.x 0
    else r.saveCount sl = (r.exitMachine sl).cntpct
  else IsTimeOverride (r.trapEsr sl) ∨
    (r.exitMachine sl).cntvct = (r.st.vcpu r.vcpu).arch.cntvct_el0

instance : Decidable (r.SnapshotFresh sl) :=
  inferInstanceAs (Decidable (if r.Yields sl then if IsTimeOverride (r.trapEsr sl) then _ = _
    else _ = _ else _ ∨ _ = _))

end Running

section Snapshot

variable {r r' : Running} {sl : Slice} {s' : State}

theorem handle_instant (hr : RunInv r) (h : r.handle sl = .returned s') :
    s'.m.instant = r.st.m.instant + 1 + handlerReads (r.trapEsr sl) := by
  rw [el2_exception_common_instant (trapped_coherent hr sl).current
    ((handle_eq hr.latch).symm.trans h), trapped_m hr.latch, exitMachine_instant]

theorem handle_clock (hr : RunInv r) (h : r.handle sl = .returned s') :
    s'.m.clock = r.st.m.clock := by
  rw [(handle_frame hr h).clock, trapped_m hr.latch, exitMachine_clock]

/-- The save path has put the guest's `x0` where the handler looks for it. -/
theorem trapped_x0 (hr : RunInv r) (sl : Slice) :
    ((r.trapped sl).vcpu r.vcpu).arch.tf.regs 0 = sl.x 0 := by
  rw [trapped_arch hr.latch, el2_vector_save_eq]
  exact congrFun (exitMachine_x r sl) 0

theorem handle_sys_cntvoff (hr : RunInv r) (h : r.handle sl = .returned s') :
    s'.m.sys .CNTVOFF_EL2 = if IsTimeOverride (r.trapEsr sl) then sl.x 0 - r.overrideCount
      else (r.exitMachine sl).sys .CNTVOFF_EL2 := by
  rw [el2_exception_common_sys_cntvoff (trapped_coherent hr sl).current
    ((handle_eq hr.latch).symm.trans h), trapped_x0 hr, trapped_m hr.latch]
  simp only [Machine.cntpct, Machine.elapse_clock, Machine.elapse_instant, exitMachine_clock,
    exitMachine_instant, Running.overrideCount]

theorem handle_cntvct (hr : RunInv r) (h : r.handle sl = .returned s') :
    (s'.vcpu r.vcpu).arch.cntvct_el0 = if IsTimeOverride (r.trapEsr sl) then sl.x 0
      else (r.st.vcpu r.vcpu).arch.cntvct_el0 := by
  rw [el2_exception_common_cntvct (trapped_coherent hr sl).current
    ((handle_eq hr.latch).symm.trans h), trapped_x0 hr, trapped_arch hr.latch]

theorem step_cntvct (hr : RunInv r) (h : r.step sl = some r') :
    (r'.st.vcpu r.vcpu).arch.cntvct_el0 = r.leftSnapshot sl := by
  rw [Running.leftSnapshot]
  rcases step_yields hr h with ⟨s', hs', ⟨hy, rfl⟩ | ⟨hy, next, target, -, rfl⟩⟩
  · rw [if_neg hy, world_switch_cntvct, if_neg (by simp), settle_arch, handle_cntvct hr hs']
  · rw [if_pos hy, world_switch_cntvct, if_pos rfl, ← handle_sys_cntvoff hr hs', Running.saveCount,
      ← handle_instant hr hs', ← handle_clock hr hs']
    rfl

/-- No step changes the snapshot of a vCPU that does not run. -/
theorem step_cntvct_of_ne (hr : RunInv r) (h : r.step sl = some r') {p : VcpuPtr}
    (hp : p ≠ r.vcpu) : (r'.st.vcpu p).arch.cntvct_el0 = (r.st.vcpu p).arch.cntvct_el0 := by
  have hkeep : ∀ s', r.handle sl = .returned s' →
      (s'.vcpu p).arch.cntvct_el0 = (r.st.vcpu p).arch.cntvct_el0 := by
    intro s' hs'
    rw [(handle_frame hr hs').others p hp, trapped_vcpu_of_ne hr.latch hp]
  rcases step_yields hr h with ⟨s', hs', ⟨-, rfl⟩ | ⟨-, next, target, -, rfl⟩⟩
  · rw [world_switch_cntvct, if_neg (by simp), settle_arch, hkeep s' hs']
  · rw [world_switch_cntvct, if_neg (by simpa using hp.symm), ← hkeep s' hs']
    exact congrArg VcpuArch.cntvct_el0 (State.setRequestYield_arch _ _ _ _)

theorem avoiding_cntvct {v : VcpuPtr} (hr : Reachable r)
    (h : Relation.ReflTransGen (StepAvoiding v) r r') :
    (r'.st.vcpu v).arch.cntvct_el0 = (r.st.vcpu v).arch.cntvct_el0 := by
  induction h with
  | refl => rfl
  | tail hpath hstep ih =>
    obtain ⟨hv, sl, hs⟩ := hstep
    rw [step_cntvct_of_ne (reachable_inv (avoiding_reachable hr hpath)) hs hv.symm, ih]

theorem next_entry_cntvct (hr : Reachable r) (h : NextEntry r sl r') :
    (r'.st.vcpu r.vcpu).arch.cntvct_el0 = r.leftSnapshot sl := by
  obtain ⟨-, r₁, hstep, hpath⟩ := h
  rw [avoiding_cntvct (.step hr hstep) hpath, step_cntvct (reachable_inv hr) hstep]

theorem leftSnapshot_eq_iff (r : Running) (sl : Slice) :
    r.leftSnapshot sl = r.exitTime sl ↔ r.SnapshotFresh sl := by
  have hoff : (r.exitMachine sl).cntvct =
      (r.exitMachine sl).cntpct - (r.exitMachine sl).sys .CNTVOFF_EL2 := rfl
  rw [Running.leftSnapshot, Running.exitTime, Running.SnapshotFresh]
  by_cases hy : r.Yields sl <;> by_cases ho : IsTimeOverride (r.trapEsr sl) <;>
    simp only [hy, ho, if_true, if_false, true_or, false_or]
  · rw [← sub_add, sub_add_eq_add_sub, sub_eq_iff_eq_add]
  · rw [hoff, sub_left_inj]
  · exact eq_comm

/-- The snapshot from which a vCPU's next entry computes its offset is the virtual time of its last
exit exactly when the exit took it afresh. -/
theorem next_entry_snapshot_iff (hr : Reachable r) (h : NextEntry r sl r') :
    (r'.st.vcpu r.vcpu).arch.cntvct_el0 = r.exitTime sl ↔ r.SnapshotFresh sl := by
  rw [next_entry_cntvct hr h, leftSnapshot_eq_iff]

/-- vCPU `0` of the cold machine reports and is re-entered at once. -/
theorem next_entry_snapshot_cold :
    ∃ r', NextEntry coldEntry (coldSlice 0x58000060) r' ∧
      ((r'.st.vcpu 0).arch.cntvct_el0 = coldEntry.exitTime (coldSlice 0x58000060) ↔
        coldEntry.SnapshotFresh (coldSlice 0x58000060)) := by
  obtain ⟨r', h, hv⟩ : ∃ r', coldEntry.step (coldSlice 0x58000060) = some r' ∧ r'.vcpu = 0 :=
    Option.map_eq_some_iff.mp (by decide)
  have hnext : NextEntry coldEntry (coldSlice 0x58000060) r' := ⟨hv, r', h, .refl⟩
  exact ⟨r', hnext, next_entry_snapshot_iff coldEntry_reachable hnext⟩

/-- The report ends sixteen ticks into the slice, but the next entry still starts from the snapshot
taken at boot. -/
theorem next_entry_snapshot_stale :
    ¬ ∀ (r r' : Running) (sl : Slice), Reachable r → NextEntry r sl r' →
      (r'.st.vcpu r.vcpu).arch.cntvct_el0 = r.exitTime sl := by
  intro hall
  have hrun : (coldEntry.step (coldSlice 0x58000060)).map (fun r =>
      (r.vcpu, (r.st.vcpu 0).arch.cntvct_el0)) = some (0, 0) := by decide
  obtain ⟨r', hstep, hobs⟩ := Option.map_eq_some_iff.mp hrun
  obtain ⟨hv, hs⟩ := Prod.mk.inj hobs
  have h := hall coldEntry r' (coldSlice 0x58000060) coldEntry_reachable ⟨hv, r', hstep, .refl⟩
  have hexit : coldEntry.exitTime (coldSlice 0x58000060) = 16 := by decide
  rw [hexit] at h
  exact absurd (hs.symm.trans h) (by decide)

end Snapshot

/-! ## The virtual counter while the guest runs -/

/-- What the guest reads from `CNTVCT_EL0` when the physical count is `phys`. -/
def Machine.cntvctAt (m : Machine) (phys : U64) : U64 := phys - m.sys .CNTVOFF_EL2

/-- The physical count that `world_switch` reads at the entry; leaving a vCPU takes an instant more. -/
def entryCount (src : Option VcpuPtr) (s : State) : U64 :=
  s.m.clock (s.m.instant + (if src.isSome then 1 else 0) + 1)

/-- An entry at the physical count `phys` makes the counter continue at the snapshot `snap`: twice
their distance vanishes, because `world_switch` computes the difference in the direction opposite to
the one in which the hardware applies it. -/
def OffsetSound (phys snap : U64) : Prop := 2 * (phys - snap) = 0

instance (phys snap : U64) : Decidable (OffsetSound phys snap) := inferInstanceAs (Decidable (_ = _))

theorem world_switch_cntpct (src : Option VcpuPtr) (target : VcpuPtr) (s : State) :
    (world_switch src target s).m.cntpct = entryCount src s := by
  rw [Machine.cntpct, world_switch_clock, world_switch_instant, entryCount]

/-- The reads of a guest whose offset is the snapshot less the physical count at the entry. -/
theorem cntvctAt_eq_iff {m : Machine} {phys snap : U64}
    (hoff : m.sys .CNTVOFF_EL2 = snap - phys) (d : U64) :
    m.cntvctAt (phys + d) = snap + d ↔ OffsetSound phys snap := by
  have h : m.cntvctAt (phys + d) = snap + d + 2 * (phys - snap) := by
    rw [Machine.cntvctAt, hoff]
    ring
  rw [h, OffsetSound, add_eq_left]

/-- The host ticks that pass during the slice that starts at `r`. -/
def Running.sliceTicks (r : Running) : U64 := r.st.m.clock (r.st.m.instant + 1) - r.st.m.cntpct

/-- `r'` is a later entry of the vCPU of `r`, and `d` host ticks were spent in its slices from `r` to
`r'`. At each entry the offset is sound, at each exit the snapshot is fresh, and the guest does not
set its virtual time. -/
inductive SoundSlices : Running → U64 → Running → Prop where
  | refl {r : Running} (hs : OffsetSound r.st.m.cntpct (r.st.vcpu r.vcpu).arch.cntvct_el0) :
      SoundSlices r 0 r
  | next {r r' r'' : Running} {d : U64} {sl : Slice} (h : SoundSlices r d r')
      (hn : NextEntry r' sl r'') (ho : ¬ IsTimeOverride (r'.trapEsr sl)) (hf : r'.SnapshotFresh sl)
      (hs : OffsetSound r''.st.m.cntpct (r''.st.vcpu r''.vcpu).arch.cntvct_el0) :
      SoundSlices r (d + r'.sliceTicks) r''

section Slices

variable {r r' : Running} {d : U64}

/-- A sound entry continues at the snapshot. -/
theorem cntvct_of_sound (hr : RunInv r)
    (hs : OffsetSound r.st.m.cntpct (r.st.vcpu r.vcpu).arch.cntvct_el0) :
    r.st.m.cntvct = (r.st.vcpu r.vcpu).arch.cntvct_el0 := by
  have h := (cntvctAt_eq_iff hr.offset 0).mpr hs
  rwa [add_zero, add_zero] at h

theorem exitMachine_cntvct (r : Running) (sl : Slice) :
    (r.exitMachine sl).cntvct = r.st.m.cntvct + r.sliceTicks := by
  have hoff : (r.exitMachine sl).sys .CNTVOFF_EL2 = r.st.m.sys .CNTVOFF_EL2 :=
    exitMachine_sys r sl .CNTVOFF_EL2
  simp only [Machine.cntvct, Machine.cntpct, hoff, exitMachine_clock, exitMachine_instant,
    Running.sliceTicks]
  ring

theorem SoundSlices.reachable (h : SoundSlices r d r') (hr : Reachable r) : Reachable r' := by
  induction h with
  | refl => exact hr
  | next _ hn _ _ _ ih =>
    obtain ⟨-, r₁, hstep, hpath⟩ := hn
    exact avoiding_reachable (.step ih hstep) hpath

/-- Over sound slices the virtual counter advances by the host ticks spent in them. -/
theorem SoundSlices.cntvct (h : SoundSlices r d r') (hr : Reachable r) :
    r'.st.m.cntvct = r.st.m.cntvct + d := by
  induction h with
  | refl => rw [add_zero]
  | @next r' r'' d sl h hn ho hf hs ih =>
    have hr' := h.reachable hr
    have hsnap : (r''.st.vcpu r'.vcpu).arch.cntvct_el0 = r'.exitTime sl :=
      (next_entry_cntvct hr' hn).trans ((leftSnapshot_eq_iff r' sl).mpr hf)
    have hr'' : Reachable r'' := (h.next hn ho hf hs).reachable hr
    rw [Running.exitTime, if_neg ho, exitMachine_cntvct, ih, ← hn.1] at hsnap
    rw [cntvct_of_sound (reachable_inv hr'') hs, hsnap, add_assoc]

end Slices

/-- For every vCPU: after a switch to it the guest reads its snapshot plus the ticks since the entry
exactly when the snapshot fits the physical count at the entry; and over slices that start sound and
end fresh its counter advances by the host ticks spent in them. -/
theorem virtual_time_iff (target : VcpuPtr) :
    (∀ (s : State) (src : Option VcpuPtr) (d : U64), src ≠ some target →
      ((world_switch src target s).m.cntvctAt (entryCount src s + d) =
          (s.vcpu target).arch.cntvct_el0 + d ↔
        OffsetSound (entryCount src s) (s.vcpu target).arch.cntvct_el0)) ∧
    ∀ (r r' : Running) (d : U64), Reachable r → r.vcpu = target → SoundSlices r d r' →
      r'.st.m.cntvct = r.st.m.cntvct + d := by
  constructor
  · intro s src d hsrc
    refine cntvctAt_eq_iff ?_ d
    rw [← world_switch_cntpct src target s]
    exact world_switch_sys s hsrc .CNTVOFF_EL2
  · intro r r' d hr _ h
    exact h.cntvct hr

/-- vCPU `0` of the cold machine spends sixteen ticks in its first slice and is back after a round of
yields during which no time passes. -/
theorem virtual_time_cold :
    ∃ r', SoundSlices coldEntry 16 r' ∧ r'.st.m.cntvct = coldEntry.st.m.cntvct + 16 := by
  obtain ⟨r', hr', hnext⟩ := coldRound_next
  have hback : (coldRun coldRound).map (fun r =>
      decide (OffsetSound r.st.m.cntpct (r.st.vcpu r.vcpu).arch.cntvct_el0)) = some true := by decide
  rw [hr'] at hback
  have hs : OffsetSound r'.st.m.cntpct (r'.st.vcpu r'.vcpu).arch.cntvct_el0 :=
    of_decide_eq_true (Option.some.inj hback)
  have hslices : SoundSlices coldEntry (0 + coldEntry.sliceTicks) r' :=
    .next (.refl (by decide)) hnext (by decide) (by decide) hs
  have hticks : 0 + coldEntry.sliceTicks = 16 := by decide
  rw [hticks] at hslices
  exact ⟨r', hslices, (virtual_time_iff 0).2 _ _ _ coldEntry_reachable rfl hslices⟩

/-- When vCPU `1` of the cold machine is first entered its virtual counter is already sixteen ticks
ahead of the physical one. -/
theorem virtual_time_jumps :
    ¬ ∀ (r : Running) (d : U64), Reachable r →
      r.st.m.cntvctAt (r.st.m.cntpct + d) = (r.st.vcpu r.vcpu).arch.cntvct_el0 + d := by
  intro hall
  have hrun : (coldRun [coldSlice 0x04000000]).map (fun r =>
      (r.st.m.cntvctAt (r.st.m.cntpct + 0), (r.st.vcpu r.vcpu).arch.cntvct_el0 + 0)) =
      some (32, 0) := by decide
  obtain ⟨r, hr, hobs⟩ := Option.map_eq_some_iff.mp hrun
  have h := hall r 0 (coldRun_reachable hr)
  obtain ⟨hread, hsnap⟩ := Prod.mk.inj hobs
  rw [hread, hsnap] at h
  exact absurd h (by decide)

end Schism
