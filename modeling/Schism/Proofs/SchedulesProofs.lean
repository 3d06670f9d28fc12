import Schism.Schedules

/-!
# Rules for schedules

What every event preserves holds along every schedule (`run_induction`). A rank that no event raises, and
that is lowered again and again until the goal is reached, leads to the goal (`reaches_of_rank`).
-/

namespace Schism.Schedules

variable {E S : Type*} {step : E → S → S} {σ : ℕ → E} {s : S}

theorem run_induction {I : S → Prop} (hs : I s) (hstep : ∀ e s, I s → I (step e s)) (n : ℕ) :
    I (run step σ s n) := by
  induction n with
  | zero => exact hs
  | succ n ih => exact hstep (σ n) _ ih

/-- The states of a run from its `n`-th on are a run of the rest of the schedule. -/
theorem run_add (n k : ℕ) : run step σ s (n + k) = run step (fun i => σ (n + i)) (run step σ s n) k := by
  induction k with
  | zero => rfl
  | succ k ih =>
    show step (σ (n + k)) (run step σ s (n + k)) = _
    rw [ih]
    rfl

theorem InfinitelyOften.after {p : E → Prop} (h : InfinitelyOften σ p) (n : ℕ) : ∃ m ≥ n, p (σ m) :=
  Filter.frequently_atTop.mp h n

/-- Until `goal` holds the rank is lowered again and again. -/
theorem reaches_of_rank {I goal : S → Prop} (rank : S → ℕ) (hs : I s) (hstep : ∀ e s, I s → I (step e s))
    (hle : ∀ e s, I s → rank (step e s) ≤ rank s)
    (hlt : ∀ n, ¬ goal (run step σ s n) →
      ∃ m ≥ n, rank (run step σ s (m + 1)) < rank (run step σ s m)) :
    ∃ n, goal (run step σ s n) := by
  have hmono : Antitone fun n => rank (run step σ s n) :=
    antitone_nat_of_succ_le fun n => hle (σ n) _ (run_induction hs hstep n)
  by_contra hnone
  push Not at hnone
  -- the least rank of the run is lowered once more
  obtain ⟨n, hn⟩ := WellFounded.has_min Nat.lt_wfRel.wf (Set.range fun n => rank (run step σ s n))
    (Set.range_nonempty _)
  obtain ⟨⟨k, rfl⟩, hleast⟩ := hn
  obtain ⟨m, hkm, hm⟩ := hlt k (hnone k)
  exact hleast _ ⟨m + 1, rfl⟩ (lt_of_lt_of_le hm (hmono hkm))

/-- A step that an event makes in the first state in which it happens. -/
theorem first_event {p : E → Prop} {Q : S → Prop} (h : InfinitelyOften σ p) (n : ℕ)
    (hn : Q (run step σ s n)) (hkeep : ∀ e s, ¬ p e → Q s → Q (step e s)) :
    ∃ m ≥ n, p (σ m) ∧ Q (run step σ s m) := by
  classical
  have hex : ∃ k, p (σ (n + k)) := by
    obtain ⟨m, hm, hp⟩ := h.after n
    exact ⟨m - n, by rwa [Nat.add_sub_cancel' hm]⟩
  have hbefore : ∀ k ≤ Nat.find hex, Q (run step σ s (n + k)) := by
    intro k hk
    induction k with
    | zero => exact hn
    | succ k ih => exact hkeep (σ (n + k)) _ (Nat.find_min hex hk) (ih (Nat.le_of_succ_le hk))
  exact ⟨n + Nat.find hex, Nat.le_add_right _ _, Nat.find_spec hex, hbefore _ le_rfl⟩

end Schism.Schedules
