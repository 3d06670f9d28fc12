import Schism.Proofs.BootProofs
import Schism.Proofs.RoundRobinProofs
import Schism.Proofs.RunProofs

/-!
# Sequences of scheduler calls

Every sequence of calls keeps the run-queue invariant and only appends to the queue
(`sched_calls_consistent`). Without `vcpu_scheduler_set_current` the index moves like the position on
a growing rota, so yielding is a round robin although vCPUs are registered meanwhile
(`yield_round_robin`).
-/

namespace Schism

open RoundRobin

/-! ## Calls as operations on the run queue -/

section Calls

variable {s s' : State} {c : SchedCall} {calls : List SchedCall}

/-- What the call does to the globals of the scheduler. -/
def SchedCall.onSched (sc : Sched) : SchedCall → Sched
  | .register v => sc.vcpu_scheduler_register v
  | .setCurrent v => sc.vcpu_scheduler_set_current v
  | .yield _ => sc.yielded

/-- A yield that switches enters the vCPU that it made current. -/
theorem vcpu_scheduler_yield_eq (s : State) :
    vcpu_scheduler_yield s = s.sched.yieldTarget.map fun q =>
      ⟨world_switch s.sched.current q.2 { s with sched := s.sched.yielded }, q.2, .yield⟩ := by
  unfold vcpu_scheduler_yield Sched.yielded
  cases s.sched.yieldTarget <;> rfl

/-- While the vCPU that a yield entered runs and traps, nobody touches the scheduler's globals. -/
theorem SchedCall.run_sched (h : c.run s = some s') : s'.sched = c.onSched s.sched := by
  cases c with
  | register v =>
    cases h
    rfl
  | setCurrent v =>
    cases h
    rfl
  | yield sl =>
    simp only [SchedCall.run, vcpu_scheduler_yield_eq] at h
    cases hy : s.sched.yieldTarget with
    | none =>
      simp only [hy, Option.map_none, Option.some.injEq] at h
      rw [← h, SchedCall.onSched, Sched.yielded, hy]
    | some q =>
      simp only [hy, Option.map_some] at h
      split at h
      · cases h
      · rename_i s₁ hs₁
        cases h
        have hcur : s.sched.yielded.current = some q.2 := by rw [Sched.yielded, hy]
        have hl := world_switch_current_trapframe { s with sched := s.sched.yielded } q.2
          s.sched.current
        have hf := el2_exception_common_frame (p := q.2)
          (by rw [trapped_sched hl, world_switch_sched]; exact hcur) ((handle_eq hl).symm.trans hs₁)
        rw [world_switch_return, State.onMachine_sched, hf.sched, trapped_sched hl, world_switch_sched]
        rfl

theorem SchedCall.selected_yield (sl : Slice) :
    (SchedCall.yield sl).selected s = s.sched.yieldTarget.map Prod.snd := by
  rw [SchedCall.selected, vcpu_scheduler_yield_eq, Option.map_map]
  rfl

end Calls

/-! ## Nothing is dropped or moved -/

/-- The entries of `sc` are still there in `sc'`, at the same places. -/
structure Sched.Extends (sc sc' : Sched) : Prop where
  len_le : sc.len ≤ sc'.len
  kept : ∀ i, i < sc.len → sc'.runqueue i = sc.runqueue i

namespace Sched.Extends

variable {sc sc' sc'' : Sched}

theorem refl (sc : Sched) : sc.Extends sc := ⟨le_rfl, fun _ _ => rfl⟩

theorem trans (h : sc.Extends sc') (h' : sc'.Extends sc'') : sc.Extends sc'' where
  len_le := h.len_le.trans h'.len_le
  kept i hi := (h'.kept i (hi.trans_le h.len_le)).trans (h.kept i hi)

theorem push (sc : Sched) (p : VcpuPtr) : sc.Extends (sc.push p) where
  len_le := Nat.le_succ _
  kept _ hi := Function.update_of_ne hi.ne _ _

theorem register (sc : Sched) (v : Option VcpuPtr) : sc.Extends (sc.vcpu_scheduler_register v) := by
  unfold Sched.vcpu_scheduler_register
  cases v with
  | none => exact refl sc
  | some p =>
    dsimp only
    split_ifs
    · exact refl sc
    · exact refl sc
    · exact ⟨(push sc p).len_le, (push sc p).kept⟩
    · exact push sc p

theorem set_current (sc : Sched) (v : Option VcpuPtr) :
    sc.Extends (sc.vcpu_scheduler_set_current v) := by
  unfold Sched.vcpu_scheduler_set_current
  cases v with
  | none => exact refl sc
  | some p =>
    dsimp only
    split
    · exact ⟨le_rfl, fun _ _ => rfl⟩
    · split
      · exact ⟨(push sc p).len_le, (push sc p).kept⟩
      · exact refl sc

theorem yielded (sc : Sched) : sc.Extends sc.yielded := by
  unfold Sched.yielded
  split
  · exact refl sc
  · exact ⟨le_rfl, fun _ _ => rfl⟩

end Sched.Extends

theorem SchedInv.yielded {sc : Sched} (h : SchedInv sc) : SchedInv sc.yielded := by
  unfold Sched.yielded
  split
  · exact h
  · rename_i next target hy
    exact h.switch_to hy

section Runs

variable {s s' : State} {c : SchedCall} {calls : List SchedCall}

/-- One call keeps the invariant and the entries. -/
theorem SchedCall.run_inv (hi : SchedInv s.sched) (h : c.run s = some s') :
    SchedInv s'.sched ∧ s.sched.Extends s'.sched := by
  rw [SchedCall.run_sched h]
  cases c with
  | register v => exact ⟨hi.register v, .register _ v⟩
  | setCurrent v => exact ⟨hi.set_current v, .set_current _ v⟩
  | yield sl => exact ⟨hi.yielded, .yielded _⟩

theorem SchedCall.runAll_cons (h : SchedCall.runAll (c :: calls) s = some s') :
    ∃ s₁, c.run s = some s₁ ∧ SchedCall.runAll calls s₁ = some s' :=
  Option.bind_eq_some_iff.mp h

/-- So does a sequence of calls. -/
theorem SchedCall.runAll_inv (hi : SchedInv s.sched) (h : SchedCall.runAll calls s = some s') :
    SchedInv s'.sched ∧ s.sched.Extends s'.sched := by
  induction calls generalizing s with
  | nil =>
    cases h
    exact ⟨hi, .refl _⟩
  | cons c calls ih =>
    obtain ⟨s₁, h₁, h⟩ := SchedCall.runAll_cons h
    obtain ⟨hi₁, he₁⟩ := SchedCall.run_inv hi h₁
    obtain ⟨hi', he'⟩ := ih hi₁ h
    exact ⟨hi', he₁.trans he'⟩

end Runs

/-- After every sequence of calls from the empty queue the four globals agree, later calls neither drop
nor move an entry, and a yield switches to another vCPU exactly when there are two. -/
theorem sched_calls_consistent (s₀ : State) (h₀ : s₀.sched = .empty) (calls : List SchedCall) (s : State)
    (h : SchedCall.runAll calls s₀ = some s) :
    SchedInv s.sched ∧
    (∀ later s', SchedCall.runAll later s = some s' → s.sched.Extends s'.sched) ∧
    ((vcpu_scheduler_yield s).isSome ↔ 2 ≤ s.sched.len) ∧
    ∀ r, vcpu_scheduler_yield s = some r → s.sched.current ≠ some r.vcpu ∧
      r.st.sched.current = some r.vcpu ∧ r.st.current_trapframe = some r.vcpu := by
  have hempty : SchedInv s₀.sched := by
    rw [h₀]
    exact .empty
  have hi := (SchedCall.runAll_inv hempty h).1
  refine ⟨hi, fun later s' hl => (SchedCall.runAll_inv hi hl).2, ?_, ?_⟩
  · rw [vcpu_scheduler_yield_eq, Option.isSome_map, ← Option.ne_none_iff_isSome, ne_eq,
      hi.yieldTarget_none_iff]
    omega
  · intro r hr
    rw [vcpu_scheduler_yield_eq] at hr
    obtain ⟨q, hy, rfl⟩ := Option.map_eq_some_iff.mp hr
    obtain ⟨-, -, -, hne⟩ := yieldTarget_some hy
    refine ⟨hne, ?_, world_switch_current_trapframe _ _ _⟩
    rw [world_switch_sched, Sched.yielded, hy]

/-- Calls with `NULL` and repeated arguments, and a yield in between. -/
def mixedCalls : List SchedCall :=
  [.register none, .setCurrent (some 3), .register (some 3), .register (some 5),
    .yield (coldSlice 0x58000060), .setCurrent none, .register (some 9)]

/-- The cold machine before anything is registered. -/
def coldIdle : State := { coldBoot with sched := .empty }

theorem sched_calls_consistent_mixed :
    ∃ s, SchedCall.runAll mixedCalls coldIdle = some s ∧ SchedInv s.sched ∧ s.sched.len = 3 ∧
      s.sched.current = some 5 ∧ (vcpu_scheduler_yield s).isSome := by
  obtain ⟨s, hs, hq⟩ : ∃ s, SchedCall.runAll mixedCalls coldIdle = some s ∧
      (s.sched.len, s.sched.current) = (3, some 5) := Option.map_eq_some_iff.mp (by decide)
  obtain ⟨hlen, hcur⟩ := Prod.mk.inj hq
  obtain ⟨hi, -, hy, -⟩ := sched_calls_consistent coldIdle rfl mixedCalls s hs
  exact ⟨s, hs, hi, hlen, hcur, hy.mpr (by omega)⟩

/-! ## The index on a growing rota -/

/-- The index as a position on the rota of the entries. -/
def Sched.rota (sc : Sched) : Rota := ⟨sc.len, sc.idx⟩

theorem register_rota {sc : Sched} (hc : sc.current.isSome) (v : Option VcpuPtr) :
    (sc.vcpu_scheduler_register v).rota = sc.rota ∨
      (sc.vcpu_scheduler_register v).rota = sc.rota.step .grow := by
  unfold Sched.vcpu_scheduler_register
  cases v with
  | none => exact Or.inl rfl
  | some p =>
    dsimp only
    split_ifs with hfull hfound hnone
    · exact Or.inl rfl
    · exact Or.inl rfl
    · have hsome : sc.current.isNone = true := hnone
      rw [Option.isNone_iff_eq_none.mp hsome] at hc
      exact absurd hc (by simp)
    · exact Or.inr rfl

section Rota

variable {s s' : State} {c : SchedCall} {calls : List SchedCall}

/-- A call other than `vcpu_scheduler_set_current` leaves the rota alone, adds a place to it, or
switches to the vCPU at the next place. -/
theorem SchedCall.run_rota (hi : SchedInv s.sched) (hpos : 0 < s.sched.len)
    (hc : ∀ v, c ≠ .setCurrent v) (h : c.run s = some s') :
    (c.selected s = none ∧ (s'.sched.rota = s.sched.rota ∨ s'.sched.rota = s.sched.rota.step .grow)) ∨
      ∃ v, c.selected s = some v ∧ s'.sched.rota = s.sched.rota.step .move ∧
        s'.sched.idx < s'.sched.len ∧ s'.sched.runqueue s'.sched.idx = some v := by
  rw [SchedCall.run_sched h]
  cases c with
  | register v => exact Or.inl ⟨rfl, register_rota (hi.current_isSome.mpr hpos) v⟩
  | setCurrent v => exact absurd rfl (hc v)
  | yield sl =>
    rw [SchedCall.selected_yield, SchedCall.onSched, Sched.yielded]
    cases hy : s.sched.yieldTarget with
    | none => exact Or.inl ⟨rfl, Or.inl rfl⟩
    | some q =>
      obtain ⟨-, hnext, hat, -⟩ := yieldTarget_some hy
      have hlt : q.1 < s.sched.len := by
        rw [hnext]
        exact Nat.mod_lt _ hpos
      exact Or.inr ⟨q.2, rfl, congrArg (Rota.mk s.sched.len) hnext, hlt, hat⟩

/-- A sequence of such calls moves along the rota, and the vCPUs it switches to are those at the
visited places. -/
theorem SchedCall.runAll_rota (hi : SchedInv s.sched) (hpos : 0 < s.sched.len)
    (hc : ∀ c ∈ calls, ∀ v, c ≠ .setCurrent v) (h : SchedCall.runAll calls s = some s') :
    ∃ ss, s'.sched.rota = s.sched.rota.run ss ∧
      (SchedCall.selections s calls).map some = (s.sched.rota.visits ss).map s'.sched.runqueue := by
  induction calls generalizing s with
  | nil =>
    cases h
    exact ⟨[], rfl, rfl⟩
  | cons c calls ih =>
    obtain ⟨s₁, h₁, h⟩ := SchedCall.runAll_cons h
    obtain ⟨hi₁, he₁⟩ := SchedCall.run_inv hi h₁
    obtain ⟨ss, hrota, hsel⟩ := ih hi₁ (hpos.trans_le he₁.len_le)
      (fun c' hc' => hc c' (List.mem_cons_of_mem _ hc')) h
    have he := (SchedCall.runAll_inv hi₁ h).2
    rw [SchedCall.selections, h₁, Option.elim_some]
    rcases SchedCall.run_rota hi hpos (hc c List.mem_cons_self) h₁ with
      ⟨hnone, hsame | hgrow⟩ | ⟨v, hv, hmove, hlt, hat⟩
    · rw [hnone]
      exact ⟨ss, by rw [hrota, hsame], by rw [← hsame]; exact hsel⟩
    · rw [hnone]
      exact ⟨.grow :: ss, by rw [hrota, hgrow]; rfl, by rw [hgrow] at hsel; exact hsel⟩
    · refine ⟨.move :: ss, by rw [hrota, hmove]; rfl, ?_⟩
      have hidx : (s.sched.rota.step .move).pos = s₁.sched.idx := by rw [← hmove]; rfl
      rw [hv, Rota.visits, List.map_cons, hidx, he.kept _ hlt, hat, ← hmove, ← hsel]
      rfl

end Rota

/-! ## Fairness -/

/-- From a state whose index points at `v` to the next switch to `v`: the switches in between are
pairwise distinct and reach every other vCPU of the first state. -/
theorem selections_lap {s s' : State} {calls : List SchedCall} {v : VcpuPtr} (hi : SchedInv s.sched)
    (hv : s.sched.current = some v) (hc : ∀ c ∈ calls, ∀ w, c ≠ .setCurrent w)
    (h : SchedCall.runAll calls s = some s') (hnot : v ∉ SchedCall.selections s calls)
    (hagain : s'.sched.yieldTarget.map Prod.snd = some v) :
    (SchedCall.selections s calls).Nodup ∧
      ∀ w, w ≠ v → s.sched.Registered w → w ∈ SchedCall.selections s calls := by
  obtain ⟨hlt, hat⟩ := hi.current_at v hv
  obtain ⟨hi', he⟩ := SchedCall.runAll_inv hi h
  obtain ⟨ss, hrota, hsel⟩ := SchedCall.runAll_rota hi (by omega) hc h
  -- the vCPU at a visited place has been selected
  have hmem : ∀ x ∈ s.sched.rota.visits ss, ∀ w, s'.sched.runqueue x = some w →
      w ∈ SchedCall.selections s calls := by
    intro x hx w hw
    have hin : some w ∈ (SchedCall.selections s calls).map some := by
      rw [hsel, ← hw]
      exact List.mem_map_of_mem hx
    exact (List.mem_map_of_injective (Option.some_injective _)).mp hin
  have hlap : Rota.Lap s.sched.rota s'.sched.rota (s.sched.rota.visits ss) := by
    rw [hrota]
    refine Rota.visits_lap hlt ss ?_
    intro hin
    exact hnot (hmem _ hin v ((he.kept _ hlt).trans hat))
  have hback : (s'.sched.rota.step .move).pos = s.sched.rota.pos := by
    obtain ⟨q, hy, hq⟩ := Option.map_eq_some_iff.mp hagain
    obtain ⟨hlen, hnext, hq', -⟩ := yieldTarget_some hy
    have hlt' : q.1 < s'.sched.len := by
      rw [hnext]
      exact Nat.mod_lt _ (by omega)
    have hsame : s'.sched.runqueue q.1 = s'.sched.runqueue s.sched.idx := by
      rw [hq', he.kept _ hlt, hat, hq]
    exact hnext.symm.trans (hi'.distinct _ _ hlt' (hlt.trans_le he.len_le) hsame)
  constructor
  · have hinj : (((s.sched.rota.visits ss).map s'.sched.runqueue)).Nodup := by
      refine List.Nodup.map_on ?_ hlap.nodup
      intro x hx y hy hxy
      exact hi'.distinct x y (hlap.lt_size hlt hx) (hlap.lt_size hlt hy) hxy
    rw [← hsel] at hinj
    exact List.Nodup.of_map some hinj
  · rintro w hw ⟨x, hx, hxw⟩
    have hne : x ≠ s.sched.rota.pos := by
      rintro rfl
      exact hw (Option.some.inj (hxw.symm.trans hat))
    exact hmem x (hlap.closed hlt hback x hx hne) w ((he.kept x hx).trans hxw)

/-- From every reachable state: between two consecutive switches to the vCPU `v`, with registrations at
any time, yields switch exactly once to each other vCPU that was registered at the first of them, and at
most once to a vCPU that was accepted since. -/
theorem yield_round_robin {s₀ s s₁ s₂ : State} {history between : List SchedCall} {sl : Slice}
    {v : VcpuPtr} (h₀ : s₀.sched = .empty) (hreach : SchedCall.runAll history s₀ = some s)
    (hfirst : (vcpu_scheduler_yield s).map Running.vcpu = some v)
    (hyield : (SchedCall.yield sl).run s = some s₁)
    (hcalls : ∀ c ∈ between, ∀ w, c ≠ .setCurrent w)
    (hbetween : SchedCall.runAll between s₁ = some s₂)
    (hnot : v ∉ SchedCall.selections s₁ between)
    (hagain : (vcpu_scheduler_yield s₂).map Running.vcpu = some v) :
    (∀ w, w ≠ v → s₁.sched.Registered w → (SchedCall.selections s₁ between).count w = 1) ∧
      ∀ w, s₂.sched.Registered w → ¬ s₁.sched.Registered w →
        (SchedCall.selections s₁ between).count w ≤ 1 := by
  have hempty : SchedInv s₀.sched := by
    rw [h₀]
    exact .empty
  have hi := (SchedCall.runAll_inv hempty hreach).1
  have hi₁ := (SchedCall.run_inv hi hyield).1
  rw [vcpu_scheduler_yield_eq, Option.map_map] at hfirst hagain
  obtain ⟨q, hy, rfl⟩ := Option.map_eq_some_iff.mp hfirst
  have hv : s₁.sched.current = some q.2 := by
    rw [SchedCall.run_sched hyield, SchedCall.onSched, Sched.yielded, hy]
  obtain ⟨hnodup, hall⟩ := selections_lap hi₁ hv hcalls hbetween hnot hagain
  constructor
  · intro w hw hreg
    exact List.count_eq_one_of_mem hnodup (hall w hw hreg)
  · intro w _ _
    exact List.nodup_iff_count_le_one.mp hnodup w

/-- Three yields, and a registration before the second of them. -/
def grownCalls : List SchedCall :=
  [.yield (coldSlice 0x58000060), .register (some 7), .yield (coldSlice 0x58000060),
    .yield (coldSlice 0x58000060)]

/-- Three vCPUs of the cold machine; vCPU `7` is registered while the index is at the last of them. -/
theorem yield_round_robin_grown : ∃ s₁ s₂ : State, SchedCall.runAll grownCalls s₁ = some s₂ ∧
    SchedCall.selections s₁ grownCalls = [2, 7, 0] ∧
    (vcpu_scheduler_yield s₂).map Running.vcpu = some 1 ∧
    ∀ w, w ≠ 1 → s₁.sched.Registered w → (SchedCall.selections s₁ grownCalls).count w = 1 := by
  have hrun : (SchedCall.runAll [.register (some 0), .register (some 1), .register (some 2)]
      coldIdle).bind (fun s => ((SchedCall.yield (coldSlice 0x58000060)).run s).bind fun s₁ =>
        (SchedCall.runAll grownCalls s₁).map fun s₂ =>
          ((vcpu_scheduler_yield s).map Running.vcpu, SchedCall.selections s₁ grownCalls,
            (vcpu_scheduler_yield s₂).map Running.vcpu)) = some (some 1, [2, 7, 0], some 1) := by
    decide
  obtain ⟨s, hs, hrun⟩ := Option.bind_eq_some_iff.mp hrun
  obtain ⟨s₁, hs₁, hrun⟩ := Option.bind_eq_some_iff.mp hrun
  obtain ⟨s₂, hs₂, hall⟩ := Option.map_eq_some_iff.mp hrun
  obtain ⟨hfirst, hsel, hagain⟩ : _ ∧ _ ∧ _ := by simpa only [Prod.mk.injEq] using hall
  have hidle : coldIdle.sched = .empty := rfl
  have hfair := yield_round_robin hidle hs hfirst hs₁ (by simp [grownCalls]) hs₂
    (by rw [hsel]; decide) hagain
  exact ⟨s₁, s₂, hs₂, hsel, hagain, hfair.1⟩

end Schism
