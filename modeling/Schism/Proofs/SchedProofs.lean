import Schism.Sched

/-!
# The run-queue invariant

`SchedInv` ties the four globals together. It holds of the empty queue and every operation keeps it;
under it a yield succeeds exactly when there are two vCPUs.
-/

namespace Schism

/-- The run queue holds distinct vCPUs and the index points at the current one. -/
structure SchedInv (sc : Sched) : Prop where
  len_le : sc.len ≤ VCPU_SCHED_MAX
  filled : ∀ i, i < sc.len → ∃ p, sc.runqueue i = some p
  distinct : ∀ i j, i < sc.len → j < sc.len → sc.runqueue i = sc.runqueue j → i = j
  current_isSome : sc.current.isSome ↔ 0 < sc.len
  current_at : ∀ p, sc.current = some p → sc.idx < sc.len ∧ sc.runqueue sc.idx = some p

namespace SchedInv

variable {sc : Sched} {p : VcpuPtr}

theorem empty : SchedInv .empty where
  len_le := Nat.zero_le _
  filled i hi := absurd hi (Nat.not_lt_zero i)
  distinct i _ hi := absurd hi (Nat.not_lt_zero i)
  current_isSome := by simp [Sched.empty]
  current_at p hp := by simp [Sched.empty] at hp

end SchedInv

theorem sched_find_slot_some {sc : Sched} {p : VcpuPtr} {i : ℕ} (h : sc.sched_find_slot p = some i) :
    i < sc.len ∧ sc.runqueue i = some p := by
  unfold Sched.sched_find_slot at h
  have hm := List.mem_of_find?_eq_some h
  have hp := List.find?_some h
  exact ⟨List.mem_range.mp hm, by simpa using hp⟩

theorem sched_find_slot_none {sc : Sched} {p : VcpuPtr} (h : sc.sched_find_slot p = none) {i : ℕ}
    (hi : i < sc.len) : sc.runqueue i ≠ some p := by
  unfold Sched.sched_find_slot at h
  have := List.find?_eq_none.mp h i (List.mem_range.mpr hi)
  simpa using this

/-- What a successful `yieldTarget` says. -/
theorem yieldTarget_some {sc : Sched} {next : ℕ} {target : VcpuPtr}
    (hy : sc.yieldTarget = some (next, target)) :
    2 ≤ sc.len ∧ next = (sc.idx + 1) % sc.len ∧ sc.runqueue next = some target ∧
      sc.current ≠ some target := by
  unfold Sched.yieldTarget at hy
  split at hy
  · cases hy
  · rename_i hl
    split at hy
    · cases hy
    · rename_i cur hc
      dsimp only at hy
      split at hy
      · cases hy
      · rename_i t ht
        split at hy
        · cases hy
        · rename_i hne
          cases hy
          refine ⟨by omega, rfl, ht, ?_⟩
          rw [hc]
          simpa using Ne.symm hne

namespace SchedInv

variable {sc : Sched} {p : VcpuPtr}

/-- Appending a vCPU that is not in the queue; the caller says what is current afterwards. -/
theorem push (h : SchedInv sc) (hp : sc.sched_find_slot p = none) (hl : sc.len < VCPU_SCHED_MAX)
    {idx : ℕ} {current : Option VcpuPtr} (hc : current.isSome)
    (hi : ∀ q, current = some q → idx < sc.len + 1 ∧ (sc.push p).runqueue idx = some q) :
    SchedInv { sc.push p with idx := idx, current := current } where
  len_le := hl
  filled i hi := by
    by_cases h' : i = sc.len
    · exact ⟨p, by simp [Sched.push, h']⟩
    · obtain ⟨q, hq⟩ := h.filled i (by simp [Sched.push] at hi; omega)
      exact ⟨q, by simp [Sched.push, h', hq]⟩
  distinct i j hi hj hij := by
    have hne : ∀ k, k < sc.len → sc.runqueue k ≠ some p := fun k hk => sched_find_slot_none hp hk
    simp only [Sched.push] at hi hj hij
    by_cases hi' : i = sc.len <;> by_cases hj' : j = sc.len
    · omega
    · rw [hi', Function.update_self, Function.update_of_ne hj'] at hij
      exact absurd hij.symm (hne j (by omega))
    · rw [hj', Function.update_self, Function.update_of_ne hi'] at hij
      exact absurd hij (hne i (by omega))
    · rw [Function.update_of_ne hi', Function.update_of_ne hj'] at hij
      exact h.distinct i j (by omega) (by omega) hij
  current_isSome := by simp [Sched.push, hc]
  current_at := hi

theorem register (h : SchedInv sc) (v : Option VcpuPtr) : SchedInv (sc.vcpu_scheduler_register v) := by
  unfold Sched.vcpu_scheduler_register
  cases v with
  | none => exact h
  | some p =>
    dsimp only
    split
    · exact h
    · rename_i hl
      split
      · exact h
      · rename_i hf
        have hp : sc.sched_find_slot p = none := by simpa using hf
        have hl : sc.len < VCPU_SCHED_MAX := by omega
        split
        · exact h.push hp hl rfl fun q hq => by
            cases hq
            exact ⟨by simp [Sched.push], by simp [Sched.push]⟩
        · rename_i hc
          have hc : sc.current.isSome := by simpa [Sched.push, Option.isSome_iff_ne_none] using hc
          exact h.push hp hl hc fun q hq => by
            obtain ⟨h1, h2⟩ := h.current_at q hq
            refine ⟨by omega, ?_⟩
            exact (Function.update_of_ne (by omega) _ _).trans h2

theorem set_current (h : SchedInv sc) (v : Option VcpuPtr) :
    SchedInv (sc.vcpu_scheduler_set_current v) := by
  unfold Sched.vcpu_scheduler_set_current
  cases v with
  | none => exact h
  | some p =>
    dsimp only
    split
    · rename_i slot hf
      obtain ⟨hs, hr⟩ := sched_find_slot_some hf
      refine ⟨h.len_le, h.filled, h.distinct, ?_, ?_⟩
      · simp only [Option.isSome_some, true_iff]; omega
      · intro q hq
        cases hq; exact ⟨hs, hr⟩
    · rename_i hf
      split
      · rename_i hl
        exact h.push hf hl rfl fun q hq => by
          cases hq
          exact ⟨by omega, by simp [Sched.push]⟩
      · exact h

theorem apply (h : SchedInv sc) (op : SchedOp) : SchedInv (op.apply sc) := by
  cases op with
  | register v => exact h.register v
  | setCurrent v => exact h.set_current v

/-- Every sequence of calls keeps the invariant. -/
theorem applyAll (h : SchedInv sc) (ops : List SchedOp) : SchedInv (ops.foldl SchedOp.apply sc) := by
  induction ops generalizing sc with
  | nil => exact h
  | cons op ops ih => exact ih (h.apply op)

/-! ## Yielding -/

/-- With two vCPUs a yield always finds another one. -/
theorem yieldTarget_of_two (h : SchedInv sc) (hl : 2 ≤ sc.len) :
    ∃ target, sc.yieldTarget = some ((sc.idx + 1) % sc.len, target) := by
  obtain ⟨cur, hc⟩ := Option.isSome_iff_exists.mp (h.current_isSome.mpr (by omega))
  obtain ⟨hi, hr⟩ := h.current_at cur hc
  have hn : (sc.idx + 1) % sc.len < sc.len := Nat.mod_lt _ (by omega)
  obtain ⟨target, ht⟩ := h.filled _ hn
  have hne : target ≠ cur := by
    intro he
    have hidx := h.distinct _ _ hn hi (by rw [ht, hr, he])
    -- the successor index is the index itself only in a queue of one
    by_cases hw : sc.idx + 1 = sc.len
    · rw [hw, Nat.mod_self] at hidx; omega
    · rw [Nat.mod_eq_of_lt (by omega)] at hidx; omega
  refine ⟨target, ?_⟩
  unfold Sched.yieldTarget
  rw [if_neg (by omega), hc]
  dsimp only
  rw [ht]
  exact if_neg hne

theorem yieldTarget_none_iff (h : SchedInv sc) : sc.yieldTarget = none ↔ sc.len ≤ 1 := by
  constructor
  · intro hn
    by_contra hl
    obtain ⟨t, ht⟩ := h.yieldTarget_of_two (by omega)
    rw [hn] at ht
    cases ht
  · intro hl
    exact if_pos hl

theorem switch_to (h : SchedInv sc) {next : ℕ} {target : VcpuPtr}
    (hy : sc.yieldTarget = some (next, target)) :
    SchedInv { sc with current := some target, idx := next } := by
  obtain ⟨hl, rfl, hr, -⟩ := yieldTarget_some hy
  refine ⟨h.len_le, h.filled, h.distinct, ?_, ?_⟩
  · simp only [Option.isSome_some, true_iff]; omega
  · intro q hq
    cases hq; exact ⟨Nat.mod_lt _ (by omega), hr⟩

end SchedInv

end Schism
