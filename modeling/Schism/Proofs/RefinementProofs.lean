import Schism.Proofs.BootProofs
import Schism.Proofs.RoundRobinProofs
import Schism.Proofs.RunProofs

/-!
# `vcpu_run` as a round-robin scheduler

An entry is seen as a turn (`Running.turn`): the entered vCPU, whether `vcpu_scheduler_yield` made the
entry, and the vCPU's request flag. One step of a run is one step of the turns (`step_turn`), so the
order of the entries is that of `RoundRobin.turns` over the queue's successor function.
-/

namespace Schism

open RoundRobin

/-! ## The queue as a cycle -/

/-- The vCPUs of the run queue. -/
def Sched.members (sc : Sched) : Set VcpuPtr := {v | ∃ i < sc.len, sc.runqueue i = some v}

/-- The vCPU that follows `v` in the run queue. -/
def Sched.after (sc : Sched) (v : VcpuPtr) : VcpuPtr :=
  match sc.sched_find_slot v with
  | none => v
  | some i => (sc.runqueue ((i + 1) % sc.len)).getD v

namespace SchedInv

variable {sc : Sched} {v : VcpuPtr} {i : ℕ}

theorem find_slot (h : SchedInv sc) (hi : i < sc.len) (hv : sc.runqueue i = some v) :
    sc.sched_find_slot v = some i := by
  cases hf : sc.sched_find_slot v with
  | none => exact absurd hv (sched_find_slot_none hf hi)
  | some j =>
    obtain ⟨hj, hvj⟩ := sched_find_slot_some hf
    rw [h.distinct j i hj hi (hvj.trans hv.symm)]

theorem after_eq (h : SchedInv sc) (hi : i < sc.len) (hv : sc.runqueue i = some v) :
    sc.runqueue ((i + 1) % sc.len) = some (sc.after v) := by
  obtain ⟨w, hw⟩ := h.filled _ (Nat.mod_lt (i + 1) (by omega))
  simp only [Sched.after, h.find_slot hi hv, hw, Option.getD_some]

theorem after_mem (h : SchedInv sc) (hv : v ∈ sc.members) : sc.after v ∈ sc.members := by
  obtain ⟨i, hi, hq⟩ := hv
  exact ⟨_, Nat.mod_lt _ (by omega), h.after_eq hi hq⟩

theorem after_eq_self_iff (h : SchedInv sc) (hv : v ∈ sc.members) : sc.after v = v ↔ sc.len = 1 := by
  obtain ⟨i, hi, hq⟩ := hv
  have ha := h.after_eq hi hq
  constructor
  · intro he
    have hidx := h.distinct _ _ (Nat.mod_lt _ (by omega)) hi (ha.trans (by rw [he, hq]))
    by_cases hw : i + 1 = sc.len
    · rw [hw, Nat.mod_self] at hidx
      omega
    · rw [Nat.mod_eq_of_lt (by omega)] at hidx
      omega
  · intro hl
    have hi0 : i = 0 := by omega
    rw [hl, Nat.mod_one, ← hi0, hq] at ha
    exact (Option.some.inj ha).symm

/-- A yield goes to the successor of the current vCPU. -/
theorem yieldTarget_eq_after (h : SchedInv sc) (hc : sc.current = some v) {next : ℕ}
    {target : VcpuPtr} (hy : sc.yieldTarget = some (next, target)) : target = sc.after v := by
  obtain ⟨hi, hq⟩ := h.current_at v hc
  obtain ⟨-, rfl, ht, -⟩ := yieldTarget_some hy
  exact Option.some.inj (ht.symm.trans (h.after_eq hi hq))

theorem current_mem (h : SchedInv sc) (hc : sc.current = some v) : v ∈ sc.members :=
  ⟨sc.idx, h.current_at v hc⟩

end SchedInv

/-! ## Entries as turns -/

/-- The slice ends with a WFI or WFE. -/
def Slice.waits (sl : Slice) : Bool :=
  match sl.exit with
  | .sync esr _ => decide (esr_ec esr = 0x01)
  | _ => false

/-- The slice ends with a synchronous exception. -/
def Slice.Sync (sl : Slice) : Prop := ∃ esr far, sl.exit = .sync esr far

def Running.turn (r : Running) : Turn VcpuPtr where
  cur := r.vcpu
  nested := decide (r.site = .yield)
  pending := (r.st.vcpu r.vcpu).request_yield

section Step

variable {r r' : Running} {sl : Slice}

theorem trapEsr_waits (r : Running) (hx : sl.Sync) :
    decide (esr_ec (r.trapEsr sl) = 0x01) = sl.waits := by
  obtain ⟨esr, far, hx⟩ := hx
  have he : r.trapEsr sl = esr := by
    rw [Running.trapEsr, exitMachine_sys r sl .ESR_EL2]
    simp only [hx]
  rw [he, Slice.waits, hx]

/-- The queue never changes during a run. -/
theorem step_sched (hr : RunInv r) (h : r.step sl = some r') :
    r'.st.sched.after = r.st.sched.after ∧ r'.st.sched.len = r.st.sched.len ∧
      r'.st.sched.members = r.st.sched.members := by
  rcases step_yields hr h with ⟨s', hs', ⟨-, rfl⟩ | ⟨-, next, target, -, rfl⟩⟩
  · have hq : (world_switch none r.vcpu (r.settle s')).sched = r.st.sched := by
      rw [world_switch_sched, settle_sched, handle_sched hr hs']
    simp only [hq, and_self]
  · have hq : (world_switch (some r.vcpu) target (r.yieldState s' next target)).sched =
        { r.st.sched with current := some target, idx := next } := by
      rw [world_switch_sched, ← handle_sched hr hs']
      rfl
    rw [hq]
    exact ⟨rfl, rfl, rfl⟩

/-- One step of a run is one turn. -/
theorem step_turn (hr : RunInv r) (hx : sl.Sync) (h : r.step sl = some r') :
    r'.turn = r.turn.next r.st.sched.after sl.waits := by
  have hmem := hr.sched.current_mem hr.current
  have hone := hr.sched.after_eq_self_iff hmem
  have hpos : 0 < r.st.sched.len := by
    obtain ⟨i, hi, -⟩ := hmem
    omega
  obtain ⟨s', hs', hcase⟩ := step_yields hr h
  have hreq := handle_request_yield hr hs'
  rw [trapEsr_waits r hx] at hreq
  have hyield : r.Yields sl ↔ r.site = .loop ∧
      (sl.waits || (r.st.vcpu r.vcpu).request_yield) = true ∧ r.st.sched.after r.vcpu ≠ r.vcpu := by
    rw [Running.Yields, ← trapEsr_waits r hx, Bool.or_eq_true, decide_eq_true_iff, ne_eq, hone]
    refine and_congr_right fun _ => and_congr_right ?_
    intro _
    omega
  rcases hcase with ⟨hy, rfl⟩ | ⟨hy, next, target, ht, rfl⟩
  · cases hsite : r.site with
    | yield =>
      -- the loop does not look at a request made inside the nested entry
      have hkept : ((r.settle s').vcpu r.vcpu).request_yield = (s'.vcpu r.vcpu).request_yield := by
        simp only [Running.settle, hsite]
        rfl
      simp only [Running.turn, Turn.next, hsite, decide_true, if_true, world_switch_request_yield,
        hkept, hreq, Bool.or_comm]
      rfl
    | loop =>
      have hclear : ((r.settle s').vcpu r.vcpu).request_yield = false := by
        simp only [Running.settle, hsite]
        exact State.setRequestYield_self _ _ _
      have hno := fun hw => hy (hyield.mpr ⟨hsite, hw⟩)
      simp only [Running.turn, Turn.next, hsite, world_switch_request_yield, hclear]
      rw [if_neg (by decide), if_neg hno]
      rfl
  · obtain ⟨hsite, hw⟩ := hyield.mp hy
    have hfresh := (step_inv hr h).fresh rfl
    simp only at hfresh
    simp only [Running.turn, Turn.next, hsite, hfresh]
    rw [if_neg (by decide), if_pos hw, hr.sched.yieldTarget_eq_after hr.current ht]
    rfl

/-- A run is a sequence of turns. -/
theorem entries_turns {sls : List Slice} {rs : List Running} (hr : RunInv r)
    (hx : ∀ sl ∈ sls, sl.Sync) (h : r.entries sls = some rs) :
    rs.map Running.turn = turns r.st.sched.after r.turn (sls.map Slice.waits) := by
  induction sls generalizing r rs with
  | nil =>
    cases h
    rfl
  | cons sl sls ih =>
    obtain ⟨r', hstep, h⟩ := Option.bind_eq_some_iff.mp h
    obtain ⟨rs', hrest, h⟩ := Option.bind_eq_some_iff.mp h
    cases h
    have hturn := step_turn hr (hx sl List.mem_cons_self) hstep
    rw [List.map_cons, ih (step_inv hr hstep) (fun sl' hm => hx sl' (List.mem_cons_of_mem _ hm)) hrest,
      (step_sched hr hstep).1, hturn]
    rfl

end Step

/-- `vcpu_run` started with a registered vCPU enters it first. -/
theorem vcpu_run_registered {s : State} {v : VcpuPtr} (hinv : SchedInv s.sched)
    (hreq : (s.vcpu v).request_yield = false) (hv : v ∈ s.sched.members) :
    ∃ r, vcpu_run (some v) s = some r ∧ r.turn = ⟨v, false, false⟩ ∧
      r.st.sched.after = s.sched.after := by
  obtain ⟨i, hi, hq⟩ := hv
  have hset : s.sched.vcpu_scheduler_set_current (some v) =
      { s.sched with current := some v, idx := i } := by
    simp only [Sched.vcpu_scheduler_set_current, hinv.find_slot hi hq]
  refine ⟨⟨world_switch none v { s with sched := s.sched.vcpu_scheduler_set_current (some v) }, v,
    .loop⟩, ?_, ?_, ?_⟩
  · simp only [vcpu_run, loop_head, hset]
  · simp only [Running.turn, world_switch_request_yield, hreq]
    rfl
  · simp only [world_switch_sched, hset]
    rfl

/-- `vcpu_run` enters the vCPUs in round-robin order, and none with an open request, exactly when the
queue holds one vCPU or no two WFI/WFE traps follow each other. -/
theorem vcpu_run_round_robin_iff {s : State} {ops : List SchedOp} {v : VcpuPtr} (hs : Booted s)
    (hv : v ∈ (s.schedule ops).sched.members) :
    ∃ r, vcpu_run (some v) (s.schedule ops) = some r ∧
      ∀ (sls : List Slice) (rs : List Running), (∀ sl ∈ sls, sl.Sync) → r.entries sls = some rs →
        (rs.map Running.vcpu = schedule (s.schedule ops).sched.after v (sls.map Slice.waits) ↔
          (s.schedule ops).sched.len = 1 ∨ Spaced (sls.map Slice.waits)) ∧
        ((∀ r' ∈ rs, (r'.st.vcpu r'.vcpu).request_yield = false) ↔
          (s.schedule ops).sched.len = 1 ∨ Spaced (sls.map Slice.waits)) := by
  have hinv : SchedInv (s.schedule ops).sched := by
    simp only [State.schedule, hs.sched]
    exact SchedInv.empty.applyAll ops
  obtain ⟨r, hrun, hturn, hafter⟩ := vcpu_run_registered hinv (hs.no_request v) hv
  refine ⟨r, hrun, ?_⟩
  intro sls rs hx he
  have hturns := entries_turns (start_inv hs hrun) hx he
  rw [hturn, hafter] at hturns
  have hcur : rs.map Running.vcpu =
      (turns (s.schedule ops).sched.after ⟨v, false, false⟩ (sls.map Slice.waits)).map Turn.cur := by
    rw [← hturns, List.map_map]
    rfl
  have hpend : (∀ r' ∈ rs, (r'.st.vcpu r'.vcpu).request_yield = false) ↔
      ∀ t ∈ turns (s.schedule ops).sched.after ⟨v, false, false⟩ (sls.map Slice.waits),
        t.pending = false := by
    rw [← hturns, List.forall_mem_map]
    rfl
  rw [hcur, hpend]
  by_cases hone : (s.schedule ops).sched.len = 1
  · have halone := turns_alone ((hinv.after_eq_self_iff hv).mpr hone) (sls.map Slice.waits)
    exact ⟨iff_of_true halone.1 (Or.inl hone), iff_of_true halone.2 (Or.inl hone)⟩
  · have hcycle : ∀ w ∈ (s.schedule ops).sched.members, (s.schedule ops).sched.after w ∈
        (s.schedule ops).sched.members ∧ (s.schedule ops).sched.after w ≠ w :=
      fun w hw => ⟨hinv.after_mem hw, fun he => hone ((hinv.after_eq_self_iff hw).mp he)⟩
    simp only [hone, false_or]
    exact (turns_spaced hcycle (sls.map Slice.waits) v hv).1

/-- The run of the cold machine from vCPU `0`. -/
theorem vcpu_run_round_robin_cold :
    ∃ r, vcpu_run (some 0) coldBoot = some r ∧
      ∀ (sls : List Slice) (rs : List Running), (∀ sl ∈ sls, sl.Sync) → r.entries sls = some rs →
        (rs.map Running.vcpu = schedule coldBoot.sched.after 0 (sls.map Slice.waits) ↔
          coldBoot.sched.len = 1 ∨ Spaced (sls.map Slice.waits)) ∧
        ((∀ r' ∈ rs, (r'.st.vcpu r'.vcpu).request_yield = false) ↔
          coldBoot.sched.len = 1 ∨ Spaced (sls.map Slice.waits)) := by
  have hv : 0 ∈ coldBoot.sched.members := ⟨0, by decide, by decide⟩
  obtain ⟨s, hs, he⟩ := coldBoot_eq
  rw [he] at hv ⊢
  exact vcpu_run_round_robin_iff hs hv

/-- Two waits in a row: vCPU `1` is entered again although it asked to yield, and vCPU `0` is not
served. -/
theorem second_wait_ignored :
    ¬ ∀ (s : State) (ops : List SchedOp) (v : VcpuPtr) (r : Running) (sls : List Slice)
      (rs : List Running), Booted s → v ∈ (s.schedule ops).sched.members →
      vcpu_run (some v) (s.schedule ops) = some r → (∀ sl ∈ sls, sl.Sync) →
      r.entries sls = some rs →
      rs.map Running.vcpu = schedule (s.schedule ops).sched.after v (sls.map Slice.waits) ∧
        ∀ r' ∈ rs, (r'.st.vcpu r'.vcpu).request_yield = false := by
  intro hall
  have hentries : (coldEntry.entries [coldSlice 0x04000000, coldSlice 0x04000000]).map
      (List.map Running.vcpu) = some [0, 1, 1] := by decide
  obtain ⟨rs, he, hvcpus⟩ := Option.map_eq_some_iff.mp hentries
  have hv : 0 ∈ coldBoot.sched.members := ⟨0, by decide, by decide⟩
  have hrun := coldEntry_eq
  have hspec : schedule coldBoot.sched.after 0
      ([coldSlice 0x04000000, coldSlice 0x04000000].map Slice.waits) = [0, 1, 0] := by decide
  obtain ⟨s, hs, hb⟩ := coldBoot_eq
  rw [hb] at hv hrun hspec
  have h := (hall s _ 0 coldEntry _ rs hs hv hrun
    (by simp only [List.forall_mem_cons]; exact ⟨⟨_, _, rfl⟩, ⟨_, _, rfl⟩, by simp⟩) he).1
  rw [hvcpus, hspec] at h
  exact absurd h (by decide)

end Schism
