import Schism.Proofs.PageTablesProofs

/-!
# Tables that are built again

A reset clears the root and the counters and leaves the pools as they are. What the pools held does not
matter: a table is cleared when it is taken, and nothing beyond the counters is ever read. So two
builders that agree on the allocated tables go on to agree (`SameTree`), and a reset makes any two
agree. What lies beyond the counters is not written either (`mapPages_untouched`).
-/

namespace Schism.PageTables

universe u v w

variable {ι : Type u} {D : Type v} {A : Type w} {c : Pools D A}

/-! ## Agreement on the allocated tables -/

/-- The root, the counters and the allocated tables are the same. -/
structure SameTree (t t' : Tables ι D) : Prop where
  l1 : t.l1 = t'.l1
  l1Child : t.l1Child = t'.l1Child
  l2Used : t.l2Used = t'.l2Used
  l3Used : t.l3Used = t'.l3Used
  l2 : ∀ k < t.l2Used, t.l2 k = t'.l2 k
  l2Child : ∀ k < t.l2Used, t.l2Child k = t'.l2Child k
  l3 : ∀ m < t.l3Used, t.l3 m = t'.l3 m

theorem reset_sameTree (t t' : Tables ι D) : SameTree (reset c t) (reset c t') where
  l1 := rfl
  l1Child := rfl
  l2Used := rfl
  l3Used := rfl
  l2 k hk := absurd hk (Nat.not_lt_zero k)
  l2Child k hk := absurd hk (Nat.not_lt_zero k)
  l3 m hm := absurd hm (Nat.not_lt_zero m)

/-- Pools that agree below the counter agree below the next one when both take the same element. -/
theorem update_agree {T : Type*} {f g : ℕ → T} {n n' : ℕ} (hn : n = n') (h : ∀ k < n, f k = g k) (v : T) :
    ∀ k < n + 1, Function.update f n v k = Function.update g n' v k := by
  subst hn
  intro k hk
  rcases Nat.lt_succ_iff_lt_or_eq.mp hk with hlt | rfl
  · rw [Function.update_of_ne hlt.ne, Function.update_of_ne hlt.ne, h k hlt]
  · rw [Function.update_self, Function.update_self]

/-- They also agree when both change the same allocated element alike. -/
theorem update_agree_below {T : Type*} {f g : ℕ → T} {n : ℕ} (h : ∀ k < n, f k = g k) {v v' : T}
    (hv : v = v') (k : ℕ) : ∀ k' < n, Function.update f k v k' = Function.update g k v' k' := by
  subst hv
  intro k' hk'
  rcases eq_or_ne k' k with rfl | hne
  · rw [Function.update_self, Function.update_self]
  · rw [Function.update_of_ne hne, Function.update_of_ne hne, h k' hk']

namespace SameTree

variable {t t' u : Tables ι D} (h : SameTree t t')
include h

theorem child (hw : Wf c t) (i j : ι) : t.child i j = t'.child i j := by
  cases hk : t.l1Child i with
  | none =>
    have hk' : t'.l1Child i = none := by rw [← h.l1Child, hk]
    rw [child_of_none hk, child_of_none hk']
  | some k =>
    have hk' : t'.l1Child i = some k := by rw [← h.l1Child, hk]
    rw [child_of_l1 hk, child_of_l1 hk', h.l2Child k (hw.l2_lt i k hk)]

/-- Tables that agree have the same contents. -/
theorem entry (hw : Wf c t) : t.entry c = t'.entry c := by
  funext p
  have hchild := h.child hw p.1 p.2.1
  cases hm : t.child p.1 p.2.1 with
  | none => rw [entry_of_none hm, entry_of_none (hchild.symm.trans hm)]
  | some m =>
    rw [entry_of_child hm, entry_of_child (hchild.symm.trans hm), h.l3 m (hw.l3_lt _ _ m hm)]

variable [DecidableEq ι]

theorem growL2 (i : ι) : SameTree (growL2 c i t) (growL2 c i t') where
  l1 := by simp only [PageTables.growL2, h.l1, h.l2Used]
  l1Child := by simp only [PageTables.growL2, h.l1Child, h.l2Used]
  l2Used := congrArg (· + 1) h.l2Used
  l3Used := h.l3Used
  l2 := update_agree h.l2Used h.l2 _
  l2Child := update_agree h.l2Used h.l2Child _
  l3 := h.l3

theorem growL3 {k : ℕ} (hk : k < t.l2Used) (j : ι) :
    SameTree (growL3 c k j t) (growL3 c k j t') where
  l1 := h.l1
  l1Child := h.l1Child
  l2Used := h.l2Used
  l3Used := congrArg (· + 1) h.l3Used
  l2 := update_agree_below h.l2 (by rw [h.l2 k hk, h.l3Used]) k
  l2Child := update_agree_below h.l2Child (by rw [h.l2Child k hk, h.l3Used]) k
  l3 := update_agree h.l3Used h.l3 _

theorem writeL3 {m : ℕ} (hm : m < t.l3Used) (l : ι) (d : D) :
    SameTree (writeL3 m l d t) (writeL3 m l d t') where
  l1 := h.l1
  l1Child := h.l1Child
  l2Used := h.l2Used
  l3Used := h.l3Used
  l2 := h.l2
  l2Child := h.l2Child
  l3 := update_agree_below h.l3 (by rw [h.l3 m hm]) m

/-- The second-level table is the same one, allocated or not. -/
theorem ensureL2 {i : ι} {k : ℕ} (hu : ensureL2 c i t = some (k, u)) :
    ∃ u', PageTables.ensureL2 c i t' = some (k, u') ∧ SameTree u u' := by
  rcases ensureL2_cases hu with ⟨hi, rfl⟩ | ⟨hi, hn, rfl, rfl⟩
  · rw [h.l1Child] at hi
    exact ⟨t', by simp only [PageTables.ensureL2, hi], h⟩
  · rw [h.l1Child] at hi
    rw [h.l2Used] at hn
    refine ⟨_, ?_, h.growL2 i⟩
    rw [ensureL2_of_none hi, if_neg (not_le.mpr hn), h.l2Used]

theorem ensureL3 {k m : ℕ} {j : ι} (hk : k < t.l2Used) (hu : ensureL3 c k j t = some (m, u)) :
    ∃ u', PageTables.ensureL3 c k j t' = some (m, u') ∧ SameTree u u' := by
  have hchild := h.l2Child k hk
  rcases ensureL3_cases hu with ⟨hj, rfl⟩ | ⟨hj, hn, rfl, rfl⟩
  · rw [hchild] at hj
    exact ⟨t', by simp only [PageTables.ensureL3, hj], h⟩
  · rw [hchild] at hj
    rw [h.l3Used] at hn
    refine ⟨_, ?_, h.growL3 hk j⟩
    rw [ensureL3_of_none hj, if_neg (not_le.mpr hn), h.l3Used]

theorem mapPage {p : Path ι} {d : D} (hw : Wf c t) (hu : mapPage c p d t = some u) :
    ∃ u', PageTables.mapPage c p d t' = some u' ∧ SameTree u u' := by
  obtain ⟨i, j, l⟩ := p
  obtain ⟨⟨k, t₁⟩, h₁, hu⟩ := Option.bind_eq_some_iff.mp hu
  obtain ⟨⟨m, t₂⟩, h₂, hu⟩ := Option.bind_eq_some_iff.mp hu
  cases hu
  have e₁ := ensureL2_spec hw h₁
  have e₂ := ensureL3_spec e₁.wf e₁.l1Child_self h₂
  obtain ⟨t₁', h₁', s₁⟩ := h.ensureL2 h₁
  obtain ⟨t₂', h₂', s₂⟩ := s₁.ensureL3 (e₁.wf.l2_lt i k e₁.l1Child_self) h₂
  refine ⟨PageTables.writeL3 m l d t₂', ?_, s₂.writeL3 (e₂.wf.l3_lt i j m e₂.child_self) l d⟩
  exact Option.bind_eq_some_iff.mpr ⟨_, h₁', Option.bind_eq_some_iff.mpr ⟨_, h₂', rfl⟩⟩

/-- Builders that agree return on the same pages, and agree again. -/
theorem mapPages {ps : List (Path ι × D)} (hw : Wf c t) (hu : mapPages c ps t = some u) :
    ∃ u', PageTables.mapPages c ps t' = some u' ∧ SameTree u u' := by
  induction ps generalizing t t' with
  | nil =>
    cases hu
    exact ⟨t', rfl, h⟩
  | cons p ps ih =>
    rw [PageTables.mapPages, List.foldlM_cons] at hu
    obtain ⟨t₁, h₁, hu⟩ := Option.bind_eq_some_iff.mp hu
    obtain ⟨t₁', h₁', s₁⟩ := h.mapPage hw h₁
    obtain ⟨u', hu', s⟩ := ih s₁ (mapPage_spec hw h₁).wf hu
    refine ⟨u', ?_, s⟩
    rw [PageTables.mapPages, List.foldlM_cons]
    exact Option.bind_eq_some_iff.mpr ⟨t₁', h₁', hu'⟩

end SameTree

/-! ## The pools beyond the counters -/

/-- The tables that are not yet allocated hold what they held. -/
structure Untouched (t t' : Tables ι D) : Prop where
  l2Used : t.l2Used ≤ t'.l2Used
  l3Used : t.l3Used ≤ t'.l3Used
  l2 : ∀ k, t'.l2Used ≤ k → t'.l2 k = t.l2 k
  l2Child : ∀ k, t'.l2Used ≤ k → t'.l2Child k = t.l2Child k
  l3 : ∀ m, t'.l3Used ≤ m → t'.l3 m = t.l3 m

namespace Untouched

variable {t t₁ t' : Tables ι D}

theorem refl (t : Tables ι D) : Untouched t t :=
  ⟨le_rfl, le_rfl, fun _ _ => rfl, fun _ _ => rfl, fun _ _ => rfl⟩

theorem trans (h : Untouched t t₁) (h' : Untouched t₁ t') : Untouched t t' where
  l2Used := h.l2Used.trans h'.l2Used
  l3Used := h.l3Used.trans h'.l3Used
  l2 k hk := (h'.l2 k hk).trans (h.l2 k (h'.l2Used.trans hk))
  l2Child k hk := (h'.l2Child k hk).trans (h.l2Child k (h'.l2Used.trans hk))
  l3 m hm := (h'.l3 m hm).trans (h.l3 m (h'.l3Used.trans hm))

end Untouched

section Untouched

variable [DecidableEq ι] {t t' : Tables ι D}

theorem growL2_untouched (i : ι) : Untouched t (growL2 c i t) where
  l2Used := Nat.le_succ _
  l3Used := le_rfl
  l2 k hk := by
    have hne : k ≠ t.l2Used := (Nat.lt_of_succ_le hk).ne'
    simp [growL2, hne]
  l2Child k hk := by
    have hne : k ≠ t.l2Used := (Nat.lt_of_succ_le hk).ne'
    simp [growL2, hne]
  l3 _ _ := rfl

theorem growL3_untouched {k : ℕ} (hk : k < t.l2Used) (j : ι) : Untouched t (growL3 c k j t) where
  l2Used := le_rfl
  l3Used := Nat.le_succ _
  l2 k' hk' := by
    have hne : k' ≠ k := (hk.trans_le hk').ne'
    simp [growL3, hne]
  l2Child k' hk' := by
    have hne : k' ≠ k := (hk.trans_le hk').ne'
    simp [growL3, hne]
  l3 m hm := by
    have hne : m ≠ t.l3Used := (Nat.lt_of_succ_le hm).ne'
    simp [growL3, hne]

theorem writeL3_untouched {m : ℕ} (hm : m < t.l3Used) (l : ι) (d : D) :
    Untouched t (writeL3 m l d t) where
  l2Used := le_rfl
  l3Used := le_rfl
  l2 _ _ := rfl
  l2Child _ _ := rfl
  l3 m' hm' := by
    have hne : m' ≠ m := (hm.trans_le hm').ne'
    simp [writeL3, hne]

theorem ensureL2_untouched {i : ι} {k : ℕ} (h : ensureL2 c i t = some (k, t')) : Untouched t t' := by
  rcases ensureL2_cases h with ⟨-, rfl⟩ | ⟨-, -, rfl, rfl⟩
  · exact Untouched.refl _
  · exact growL2_untouched i

theorem ensureL3_untouched {k m : ℕ} {j : ι} (hk : k < t.l2Used)
    (h : ensureL3 c k j t = some (m, t')) : Untouched t t' := by
  rcases ensureL3_cases h with ⟨-, rfl⟩ | ⟨-, -, rfl, rfl⟩
  · exact Untouched.refl _
  · exact growL3_untouched hk j

theorem mapPage_untouched {p : Path ι} {d : D} (hw : Wf c t) (h : mapPage c p d t = some t') :
    Untouched t t' := by
  obtain ⟨i, j, l⟩ := p
  obtain ⟨⟨k, t₁⟩, h₁, h⟩ := Option.bind_eq_some_iff.mp h
  obtain ⟨⟨m, t₂⟩, h₂, h⟩ := Option.bind_eq_some_iff.mp h
  cases h
  have e₁ := ensureL2_spec hw h₁
  have e₂ := ensureL3_spec e₁.wf e₁.l1Child_self h₂
  have hk : k < t₁.l2Used := e₁.wf.l2_lt i k e₁.l1Child_self
  have hm : m < t₂.l3Used := e₂.wf.l3_lt i j m e₂.child_self
  exact ((ensureL2_untouched h₁).trans (ensureL3_untouched hk h₂)).trans (writeL3_untouched hm l d)

theorem mapPages_untouched {ps : List (Path ι × D)} (hw : Wf c t) (h : mapPages c ps t = some t') :
    Untouched t t' := by
  induction ps generalizing t with
  | nil =>
    cases h
    exact Untouched.refl _
  | cons p ps ih =>
    rw [mapPages, List.foldlM_cons] at h
    obtain ⟨t₁, h₁, h⟩ := Option.bind_eq_some_iff.mp h
    exact (mapPage_untouched hw h₁).trans (ih (mapPage_spec hw h₁).wf h)

end Untouched

end Schism.PageTables
