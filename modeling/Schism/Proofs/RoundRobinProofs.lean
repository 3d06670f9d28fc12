import Schism.RoundRobin

/-!
# When nested turns are a round robin

The induction is on the requests, for a turn of the loop and for a nested turn at once; a nested turn
remembers that it was itself the answer to a request.

On a growing rota the moves between two visits of one place reach every place that was there at the
first visit, and no place twice (`Rota.visits_lap`).
-/

namespace Schism.RoundRobin

variable {α : Type*} {succ : α → α} {a : α} {ws : List Bool}

theorem spaced_false_cons : Spaced (false :: ws) ↔ Spaced ws := by
  cases ws with
  | nil => simp [Spaced]
  | cons w ws => simp [Spaced]

theorem not_spaced_true_true : ¬ Spaced (true :: true :: ws) := by simp [Spaced]

theorem spaced_true_false_cons : Spaced (true :: false :: ws) ↔ Spaced ws := by
  refine Iff.trans ?_ spaced_false_cons
  simp [Spaced]

theorem schedule_head (succ : α → α) (a : α) (ws : List Bool) :
    (schedule succ a ws).head? = some a := by
  cases ws <;> rfl

variable [DecidableEq α]

theorem turns_head (succ : α → α) (t : Turn α) (ws : List Bool) :
    (turns succ t ws).head? = some t := by
  cases ws <;> rfl

/-- A party that is alone is served at every turn. -/
theorem turns_alone (h : succ a = a) (ws : List Bool) :
    (turns succ ⟨a, false, false⟩ ws).map Turn.cur = schedule succ a ws ∧
      ∀ t ∈ turns succ ⟨a, false, false⟩ ws, t.pending = false := by
  induction ws with
  | nil => simp [turns, schedule]
  | cons w ws ih =>
    have hn : Turn.next succ ⟨a, false, false⟩ w = ⟨a, false, false⟩ := by simp [Turn.next, h]
    have hs : (if w then succ a else a) = a := by simp [h]
    rw [turns, schedule, hn, hs]
    exact ⟨by rw [List.map_cons, ih.1], by simpa using ih.2⟩

section Two

variable {S : Set α} (hS : ∀ b ∈ S, succ b ∈ S ∧ succ b ≠ b)
include hS

/-- With more than one party the turns follow the schedule, and no request is left over, exactly when
the requests are spaced. -/
theorem turns_spaced (ws : List Bool) : ∀ a ∈ S,
    (((turns succ ⟨a, false, false⟩ ws).map Turn.cur = schedule succ a ws ↔ Spaced ws) ∧
      ((∀ t ∈ turns succ ⟨a, false, false⟩ ws, t.pending = false) ↔ Spaced ws)) ∧
    (((turns succ ⟨a, true, false⟩ ws).map Turn.cur = schedule succ a ws ↔ Spaced (true :: ws)) ∧
      ((∀ t ∈ turns succ ⟨a, true, false⟩ ws, t.pending = false) ↔ Spaced (true :: ws))) := by
  induction ws with
  | nil =>
    intro a _
    simp [turns, schedule, Spaced]
  | cons w ws ih =>
    intro a ha
    obtain ⟨hmem, hne⟩ := hS a ha
    cases w with
    | false =>
      have hloop : Turn.next succ ⟨a, false, false⟩ false = ⟨a, false, false⟩ := by simp [Turn.next]
      have hnest : Turn.next succ ⟨a, true, false⟩ false = ⟨a, false, false⟩ := by simp [Turn.next]
      obtain ⟨⟨hcur, hpend⟩, -⟩ := ih a ha
      rw [turns, turns, schedule, hloop, hnest, spaced_false_cons, spaced_true_false_cons]
      simp [hcur, hpend]
    | true =>
      have hloop : Turn.next succ ⟨a, false, false⟩ true = ⟨succ a, true, false⟩ := by
        simp [Turn.next, hne]
      have hnest : Turn.next succ ⟨a, true, false⟩ true = ⟨a, false, true⟩ := by simp [Turn.next]
      obtain ⟨-, hcur, hpend⟩ := ih (succ a) hmem
      rw [turns, turns, schedule, hloop, hnest]
      refine ⟨by simp [hcur, hpend], ?_, ?_⟩
      -- the nested party is entered again although its request is open
      · refine iff_of_false (fun h => hne ?_) not_spaced_true_true
        have hhead := congrArg List.head? (List.cons.inj h).2
        rw [List.head?_map, turns_head, if_pos rfl, schedule_head] at hhead
        exact (Option.some.inj hhead).symm
      · refine iff_of_false (?_) not_spaced_true_true
        intro h
        have hm := List.mem_of_head? (turns_head succ ⟨a, false, true⟩ ws)
        exact Bool.noConfusion (h _ (List.mem_cons_of_mem _ hm))

end Two

/-! ## One lap of a growing rota -/

namespace Rota

variable {r : Rota} {ss : List RotaStep}

theorem run_append (r : Rota) (ss ss' : List RotaStep) : r.run (ss ++ ss') = (r.run ss).run ss' :=
  List.foldl_append

theorem visits_append (r : Rota) (ss ss' : List RotaStep) :
    r.visits (ss ++ ss') = r.visits ss ++ (r.run ss).visits ss' := by
  induction ss generalizing r with
  | nil => rfl
  | cons s ss ih =>
    cases s with
    | grow => exact ih (r.step .grow)
    | move => exact congrArg ((r.step .move).pos :: ·) (ih (r.step .move))

/-- The places `vs` visited since the position left `r.pos`, up to the rota `r'`: either the position has
not passed the last place yet, or it did so when the rota had `w` places. -/
structure Lap (r r' : Rota) (vs : List ℕ) : Prop where
  size_le : r.size ≤ r'.size
  nodup : vs.Nodup
  shape : (r.pos ≤ r'.pos ∧ r'.pos < r'.size ∧ ∀ x, x ∈ vs ↔ r.pos < x ∧ x ≤ r'.pos) ∨
    ∃ w, r.size ≤ w ∧ w ≤ r'.size ∧ r'.pos < r.pos ∧
      ∀ x, x ∈ vs ↔ (r.pos < x ∧ x < w) ∨ x ≤ r'.pos

namespace Lap

variable {r' : Rota} {vs : List ℕ}

theorem start (h : r.pos < r.size) : Lap r r [] where
  size_le := le_rfl
  nodup := List.nodup_nil
  shape := by
    refine Or.inl ⟨le_rfl, h, ?_⟩
    intro x
    simp only [List.not_mem_nil, false_iff]
    omega

theorem grow (h : Lap r r' vs) : Lap r (r'.step .grow) vs where
  size_le := Nat.le_succ_of_le h.size_le
  nodup := h.nodup
  shape := by
    rcases h.shape with ⟨hle, hlt, hmem⟩ | ⟨w, hw, hle, hlt, hmem⟩
    · exact Or.inl ⟨hle, Nat.lt_succ_of_lt hlt, hmem⟩
    · exact Or.inr ⟨w, hw, Nat.le_succ_of_le hle, hlt, hmem⟩

/-- A move that does not come back to `r.pos` reaches a new place. -/
theorem move (hpos : r.pos < r.size) (h : Lap r r' vs) (hne : (r'.step .move).pos ≠ r.pos) :
    Lap r (r'.step .move) (vs ++ [(r'.step .move).pos]) := by
  have hle := h.size_le
  have hmod : (r'.step .move).pos = (r'.pos + 1) % r'.size := rfl
  have hsnoc : ∀ y, (∀ x, x ∈ vs → x ≠ y) → (vs ++ [y]).Nodup := by
    intro y hy
    exact List.nodup_append'.mpr ⟨h.nodup, List.nodup_singleton y, by
      rw [List.disjoint_singleton]
      exact fun hx => hy y hx rfl⟩
  have hmem' : ∀ x y, x ∈ vs ++ [y] ↔ x ∈ vs ∨ x = y := by simp
  rcases h.shape with ⟨hge, hlt, hmem⟩ | ⟨w, hw, hwle, hlt, hmem⟩
  · by_cases hlast : r'.pos + 1 = r'.size
    -- the move goes round to place 0
    · have hzero : (r'.step .move).pos = 0 := by rw [hmod, hlast, Nat.mod_self]
      rw [hzero] at hne ⊢
      refine ⟨hle, hsnoc 0 ?_, Or.inr ⟨r'.size, hle, le_rfl, by omega, ?_⟩⟩
      · intro x hx
        have := (hmem x).mp hx
        omega
      · intro x
        rw [hmem', hmem, hzero]
        omega
    · have hnext : (r'.step .move).pos = r'.pos + 1 := by
        rw [hmod, Nat.mod_eq_of_lt (by omega)]
      have hin : r'.pos + 1 < (r'.step .move).size := lt_of_le_of_ne hlt hlast
      rw [hnext] at hne ⊢
      refine ⟨hle, hsnoc _ ?_, Or.inl ⟨by omega, by rw [hnext]; exact hin, ?_⟩⟩
      · intro x hx
        have := (hmem x).mp hx
        omega
      · intro x
        rw [hmem', hmem, hnext]
        omega
  · have hnext : (r'.step .move).pos = r'.pos + 1 := by
      rw [hmod, Nat.mod_eq_of_lt (by omega)]
    rw [hnext] at hne ⊢
    refine ⟨hle, hsnoc _ ?_, Or.inr ⟨w, hw, hwle, by omega, ?_⟩⟩
    · intro x hx
      have := (hmem x).mp hx
      omega
    · intro x
      rw [hmem', hmem, hnext]
      omega

/-- When the next move comes back to `r.pos`, every other place of `r` was visited. -/
theorem closed (hpos : r.pos < r.size) (h : Lap r r' vs) (hback : (r'.step .move).pos = r.pos) :
    ∀ x, x < r.size → x ≠ r.pos → x ∈ vs := by
  have hle := h.size_le
  have hmod : (r'.pos + 1) % r'.size = r.pos := hback
  intro x hx hne
  rcases h.shape with ⟨hge, hlt, hmem⟩ | ⟨w, hw, hwle, hlt, hmem⟩
  · have hlast : r'.pos + 1 = r'.size := by
      by_contra hno
      rw [Nat.mod_eq_of_lt (by omega)] at hmod
      omega
    rw [hlast, Nat.mod_self] at hmod
    exact (hmem x).mpr (by omega)
  · rw [Nat.mod_eq_of_lt (by omega)] at hmod
    exact (hmem x).mpr (by omega)

/-- Every visited place is on the rota. -/
theorem lt_size (hpos : r.pos < r.size) (h : Lap r r' vs) {x : ℕ} (hx : x ∈ vs) : x < r'.size := by
  have hle := h.size_le
  rcases h.shape with ⟨hge, hlt, hmem⟩ | ⟨w, hw, hwle, hlt, hmem⟩
  · have := (hmem x).mp hx
    omega
  · have := (hmem x).mp hx
    omega

end Lap

theorem visits_lap (hpos : r.pos < r.size) (ss : List RotaStep) (hno : r.pos ∉ r.visits ss) :
    Lap r (r.run ss) (r.visits ss) := by
  induction ss using List.reverseRecOn with
  | nil => exact Lap.start hpos
  | append_singleton ss s ih =>
    rw [visits_append, List.mem_append, not_or] at hno
    rw [visits_append, run_append]
    cases s with
    | grow =>
      rw [show (r.run ss).visits [.grow] = [] from rfl, List.append_nil]
      exact (ih hno.1).grow
    | move => exact (ih hno.1).move hpos (fun he => hno.2 (List.mem_singleton.mpr he.symm))

end Rota

end Schism.RoundRobin
