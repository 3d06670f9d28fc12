import Schism.PageTables

/-!
# The shadow tree

`Wf` ties the descriptors to the pointers and the pointers to the pools: the allocated tables form a
tree in which no table has two parents. Under it, writing a page changes the descriptor of that page
only (`mapPage_spec`), and it fails exactly when a table is needed that the pools do not have
(`mapPage_isSome_iff`). `mapPages_isSome_iff` counts the tables that a sequence of pages needs.
-/

namespace Schism.PageTables

universe u v w

variable {ι : Type u} {D : Type v} {A : Type w} {c : Pools D A}

/-- The descriptors follow the pointers, and the pointers enumerate the allocated tables. -/
structure Wf (c : Pools D A) (t : Tables ι D) : Prop where
  l1_entry : ∀ i, t.l1 i = (t.l1Child i).elim c.empty fun k => c.link (c.addr2 k)
  l2_entry : ∀ i k j, t.l1Child i = some k →
    t.l2 k j = (t.l2Child k j).elim c.empty fun m => c.link (c.addr3 m)
  l2_lt : ∀ i k, t.l1Child i = some k → k < t.l2Used
  l2_inj : ∀ i i' k, t.l1Child i = some k → t.l1Child i' = some k → i = i'
  l2_onto : ∀ k, k < t.l2Used → ∃ i, t.l1Child i = some k
  l3_lt : ∀ i j m, t.child i j = some m → m < t.l3Used
  l3_inj : ∀ i j i' j' m, t.child i j = some m → t.child i' j' = some m → i = i' ∧ j = j'
  l3_onto : ∀ m, m < t.l3Used → ∃ i j, t.child i j = some m
  used2 : t.l2Used ≤ c.n2
  used3 : t.l3Used ≤ c.n3

theorem child_of_l1 {t : Tables ι D} {i : ι} {k : ℕ} (h : t.l1Child i = some k) (j : ι) :
    t.child i j = t.l2Child k j := by
  simp [Tables.child, h]

theorem child_of_none {t : Tables ι D} {i : ι} (h : t.l1Child i = none) (j : ι) :
    t.child i j = none := by
  simp [Tables.child, h]

theorem reset_wf (t : Tables ι D) : Wf c (reset c t) where
  l1_entry _ := rfl
  l2_entry i k j h := by cases h
  l2_lt i k h := by cases h
  l2_inj i i' k h := by cases h
  l2_onto k h := absurd h (Nat.not_lt_zero k)
  l3_lt i j m h := by cases h
  l3_inj i j i' j' m h := by cases h
  l3_onto m h := absurd h (Nat.not_lt_zero m)
  used2 := Nat.zero_le _
  used3 := Nat.zero_le _

theorem reset_entry (t : Tables ι D) (p : Path ι) : (reset c t).entry c p = c.empty := rfl

theorem entry_of_child {t : Tables ι D} {p : Path ι} {m : ℕ} (h : t.child p.1 p.2.1 = some m) :
    t.entry c p = t.l3 m p.2.2 := by
  simp only [Tables.entry, h]

theorem entry_of_none {t : Tables ι D} {p : Path ι} (h : t.child p.1 p.2.1 = none) :
    t.entry c p = c.empty := by
  simp only [Tables.entry, h]

/-- A partial function that enumerates `0, ..., n - 1` without repetition is defined `n` times. -/
theorem card_of_enumeration {κ : Type*} {f : κ → Option ℕ} {n : ℕ}
    (hlt : ∀ x k, f x = some k → k < n) (hinj : ∀ x x' k, f x = some k → f x' = some k → x = x')
    (honto : ∀ k, k < n → ∃ x, f x = some k) {F : Finset κ} (hF : ∀ x, (f x).isSome ↔ x ∈ F) :
    n = F.card := by
  have hsome : ∀ x ∈ F, f x = some ((f x).getD 0) := by
    intro x hx
    obtain ⟨k, hk⟩ := Option.isSome_iff_exists.mp ((hF x).mpr hx)
    rw [hk]; rfl
  have himage : F.image (fun x => (f x).getD 0) = Finset.range n := by
    ext k
    rw [Finset.mem_image, Finset.mem_range]
    constructor
    · rintro ⟨x, hx, rfl⟩
      exact hlt x _ (hsome x hx)
    · intro hk
      obtain ⟨x, hx⟩ := honto k hk
      exact ⟨x, (hF x).mp (by rw [hx]; rfl), by rw [hx]; rfl⟩
  have hinj' : Set.InjOn (fun x => (f x).getD 0) (F : Set κ) := fun x hx x' hx' h =>
    hinj x x' _ (hsome x hx) ((hsome x' hx').trans (congrArg some h.symm))
  rw [← Finset.card_range n, ← himage, Finset.card_image_of_injOn hinj']

section Build

variable [DecidableEq ι] {t t' : Tables ι D}

/-! ## Second level -/

/-- The tables after a second-level table was allocated for `i`. -/
def growL2 (c : Pools D A) (i : ι) (t : Tables ι D) : Tables ι D :=
  { t with
    l2 := Function.update t.l2 t.l2Used fun _ => c.empty
    l2Child := Function.update t.l2Child t.l2Used fun _ => none
    l2Used := t.l2Used + 1
    l1Child := Function.update t.l1Child i (some t.l2Used)
    l1 := Function.update t.l1 i (c.link (c.addr2 t.l2Used)) }

theorem ensureL2_of_none {i : ι} (h : t.l1Child i = none) :
    ensureL2 c i t = if c.n2 ≤ t.l2Used then none else some (t.l2Used, growL2 c i t) := by
  simp only [ensureL2, h, allocL2]
  split <;> rfl

/-- The entry `i` has the new table, all others have the table they had. -/
theorem growL2_l1Child_eq_some (i i' : ι) {k : ℕ} : (growL2 c i t).l1Child i' = some k ↔
    (i' = i ∧ k = t.l2Used) ∨ (i' ≠ i ∧ t.l1Child i' = some k) := by
  by_cases h : i' = i
  · simp [growL2, h, eq_comm]
  · simp [growL2, h]

section GrowL2

variable {i : ι} (hw : Wf c t) (hi : t.l1Child i = none)
include hw hi

/-- A table that is already reachable is not the one just allocated. -/
theorem growL2_child (i' j : ι) : (growL2 c i t).child i' j = t.child i' j := by
  by_cases h : i' = i
  · subst h
    rw [child_of_none hi, child_of_l1 (k := t.l2Used) (by simp [growL2])]
    simp [growL2]
  · have hl : (growL2 c i t).l1Child i' = t.l1Child i' := by simp [growL2, h]
    cases hk : t.l1Child i' with
    | none => rw [child_of_none hk, child_of_none (hl.trans hk)]
    | some k =>
      have hne : k ≠ t.l2Used := (hw.l2_lt i' k hk).ne
      rw [child_of_l1 hk, child_of_l1 (hl.trans hk)]
      simp [growL2, hne]

theorem growL2_wf (hn : t.l2Used < c.n2) : Wf c (growL2 c i t) where
  l1_entry i' := by
    by_cases h : i' = i
    · subst h; simp [growL2]
    · simpa [growL2, h] using hw.l1_entry i'
  l2_entry i' k j hk := by
    rcases (growL2_l1Child_eq_some i i').mp hk with ⟨-, rfl⟩ | ⟨-, hk'⟩
    · simp [growL2]
    · have hne : k ≠ t.l2Used := (hw.l2_lt i' k hk').ne
      simpa [growL2, hne] using hw.l2_entry i' k j hk'
  l2_lt i' k hk := by
    rcases (growL2_l1Child_eq_some i i').mp hk with ⟨-, rfl⟩ | ⟨-, hk'⟩
    · exact Nat.lt_succ_self _
    · exact Nat.lt_succ_of_lt (hw.l2_lt i' k hk')
  l2_inj i₁ i₂ k h₁ h₂ := by
    rcases (growL2_l1Child_eq_some i i₁).mp h₁ with ⟨rfl, rfl⟩ | ⟨-, h₁'⟩
    · rcases (growL2_l1Child_eq_some i₁ i₂).mp h₂ with ⟨rfl, -⟩ | ⟨-, h₂'⟩
      · rfl
      · exact absurd (hw.l2_lt i₂ _ h₂') (lt_irrefl _)
    · rcases (growL2_l1Child_eq_some i i₂).mp h₂ with ⟨rfl, rfl⟩ | ⟨-, h₂'⟩
      · exact absurd (hw.l2_lt i₁ _ h₁') (lt_irrefl _)
      · exact hw.l2_inj i₁ i₂ k h₁' h₂'
  l2_onto k hk := by
    rcases Nat.lt_succ_iff_lt_or_eq.mp hk with hlt | rfl
    · obtain ⟨i', hi'⟩ := hw.l2_onto k hlt
      have hne : i' ≠ i := by
        rintro rfl
        rw [hi] at hi'
        cases hi'
      exact ⟨i', (growL2_l1Child_eq_some i i').mpr (.inr ⟨hne, hi'⟩)⟩
    · exact ⟨i, (growL2_l1Child_eq_some i i).mpr (.inl ⟨rfl, rfl⟩)⟩
  l3_lt i' j m h := by
    rw [growL2_child hw hi] at h
    exact hw.l3_lt i' j m h
  l3_inj i₁ j₁ i₂ j₂ m h₁ h₂ := by
    rw [growL2_child hw hi] at h₁ h₂
    exact hw.l3_inj i₁ j₁ i₂ j₂ m h₁ h₂
  l3_onto m hm := by
    obtain ⟨i', j, h⟩ := hw.l3_onto m hm
    exact ⟨i', j, by rw [growL2_child hw hi, h]⟩
  used2 := hn
  used3 := hw.used3

end GrowL2

/-- What `ensureL2` establishes and what it leaves alone. -/
structure EnsuredL2 (c : Pools D A) (i : ι) (t : Tables ι D) (k : ℕ) (t' : Tables ι D) : Prop where
  wf : Wf c t'
  l1Child_self : t'.l1Child i = some k
  l1Child_isSome : ∀ i', (t'.l1Child i').isSome ↔ (t.l1Child i').isSome ∨ i' = i
  child : ∀ i' j, t'.child i' j = t.child i' j
  l3 : t'.l3 = t.l3
  l3Used : t'.l3Used = t.l3Used

/-- A second-level table is found or allocated. -/
theorem ensureL2_cases {i : ι} {k : ℕ} (h : ensureL2 c i t = some (k, t')) :
    (t.l1Child i = some k ∧ t' = t) ∨
      (t.l1Child i = none ∧ t.l2Used < c.n2 ∧ k = t.l2Used ∧ t' = growL2 c i t) := by
  cases hi : t.l1Child i with
  | some k' =>
    simp only [ensureL2, hi, Option.some.injEq, Prod.mk.injEq] at h
    obtain ⟨rfl, rfl⟩ := h
    exact Or.inl ⟨rfl, rfl⟩
  | none =>
    rw [ensureL2_of_none hi] at h
    split at h
    · cases h
    · rename_i hn
      simp only [Option.some.injEq, Prod.mk.injEq] at h
      obtain ⟨rfl, rfl⟩ := h
      exact Or.inr ⟨rfl, not_le.mp hn, rfl, rfl⟩

theorem ensureL2_l1Child {i : ι} {k : ℕ} (h : ensureL2 c i t = some (k, t')) :
    t'.l1Child i = some k := by
  rcases ensureL2_cases h with ⟨hi, rfl⟩ | ⟨-, -, rfl, rfl⟩
  · exact hi
  · simp [growL2]

theorem ensureL2_spec {i : ι} {k : ℕ} (hw : Wf c t) (h : ensureL2 c i t = some (k, t')) :
    EnsuredL2 c i t k t' := by
  have hself := ensureL2_l1Child h
  rcases ensureL2_cases h with ⟨hi, rfl⟩ | ⟨hi, hn, rfl, rfl⟩
  · refine ⟨hw, hself, fun i' => ⟨Or.inl, ?_⟩, fun _ _ => rfl, rfl, rfl⟩
    rintro (h | rfl)
    · exact h
    · rw [hi]; rfl
  · refine ⟨growL2_wf hw hi hn, hself, ?_, growL2_child hw hi, rfl, rfl⟩
    intro i'
    by_cases hne : i' = i
    · simp [growL2, hne]
    · simp [growL2, hne]

theorem ensureL2_isSome_iff {i : ι} :
    (ensureL2 c i t).isSome ↔ (t.l1Child i = none → t.l2Used < c.n2) := by
  cases hi : t.l1Child i with
  | some k => simp [ensureL2, hi]
  | none =>
    rw [ensureL2_of_none hi]
    split <;> simp <;> omega

/-! ## Third level -/

/-- The tables after a third-level table was allocated for entry `j` of the second-level table `k`. -/
def growL3 (c : Pools D A) (k : ℕ) (j : ι) (t : Tables ι D) : Tables ι D :=
  { t with
    l3 := Function.update t.l3 t.l3Used fun _ => c.empty
    l3Used := t.l3Used + 1
    l2Child := Function.update t.l2Child k (Function.update (t.l2Child k) j (some t.l3Used))
    l2 := Function.update t.l2 k (Function.update (t.l2 k) j (c.link (c.addr3 t.l3Used))) }

theorem ensureL3_of_none {k : ℕ} {j : ι} (h : t.l2Child k j = none) :
    ensureL3 c k j t = if c.n3 ≤ t.l3Used then none else some (t.l3Used, growL3 c k j t) := by
  simp only [ensureL3, h, allocL3]
  split <;> rfl

section GrowL3

variable {i j : ι} {k : ℕ} (hw : Wf c t) (hk : t.l1Child i = some k)
include hw hk

/-- Only the entry of `i` and `j` gets a new child, since `k` is the table of `i` alone. -/
theorem growL3_child (i' j' : ι) :
    (growL3 c k j t).child i' j' = if i' = i ∧ j' = j then some t.l3Used else t.child i' j' := by
  have hl : (growL3 c k j t).l1Child = t.l1Child := rfl
  cases hk' : t.l1Child i' with
  | none =>
    have hne : ¬ (i' = i ∧ j' = j) := by
      intro h
      rw [h.1, hk] at hk'
      cases hk'
    rw [if_neg hne, child_of_none hk', child_of_none (by rw [hl, hk'])]
  | some k' =>
    rw [child_of_l1 (t := growL3 c k j t) (k := k') (by rw [hl, hk']), child_of_l1 hk']
    by_cases hkk : k' = k
    · subst hkk
      have hi := hw.l2_inj i' i k' hk' hk
      by_cases hj : j' = j <;> simp [growL3, hi, hj]
    · have hi : i' ≠ i := by
        intro h
        rw [h, hk] at hk'
        exact hkk (Option.some.inj hk').symm
      simp [growL3, hkk, hi]

theorem growL3_wf (hj : t.l2Child k j = none) (hn : t.l3Used < c.n3) : Wf c (growL3 c k j t) where
  l1_entry := hw.l1_entry
  l2_entry i' k' j' hk' := by
    have hk'' : t.l1Child i' = some k' := hk'
    have he := hw.l2_entry i' k' j' hk''
    by_cases hkk : k' = k
    · subst hkk
      by_cases hjj : j' = j
      · simp [growL3, hjj]
      · simpa [growL3, hjj] using he
    · simpa [growL3, hkk] using he
  l2_lt := hw.l2_lt
  l2_inj := hw.l2_inj
  l2_onto := hw.l2_onto
  l3_lt i' j' m h := by
    rw [growL3_child hw hk] at h
    split at h
    · cases h
      exact Nat.lt_succ_self _
    · exact Nat.lt_succ_of_lt (hw.l3_lt i' j' m h)
  l3_inj i₁ j₁ i₂ j₂ m h₁ h₂ := by
    rw [growL3_child hw hk] at h₁ h₂
    split at h₁ <;> split at h₂
    · rename_i e₁ e₂
      exact ⟨e₁.1.trans e₂.1.symm, e₁.2.trans e₂.2.symm⟩
    · cases h₁
      exact absurd (hw.l3_lt i₂ j₂ _ h₂) (lt_irrefl _)
    · cases h₂
      exact absurd (hw.l3_lt i₁ j₁ _ h₁) (lt_irrefl _)
    · exact hw.l3_inj i₁ j₁ i₂ j₂ m h₁ h₂
  l3_onto m hm := by
    by_cases h : m = t.l3Used
    · exact ⟨i, j, by rw [growL3_child hw hk, if_pos ⟨rfl, rfl⟩, h]⟩
    · have hlt : m < t.l3Used + 1 := hm
      obtain ⟨i', j', h'⟩ := hw.l3_onto m (by omega)
      refine ⟨i', j', ?_⟩
      rw [growL3_child hw hk, if_neg, h']
      rintro ⟨rfl, rfl⟩
      rw [child_of_l1 hk, hj] at h'
      cases h'
  used2 := hw.used2
  used3 := hn

/-- A new table is empty, as the missing one was. -/
theorem growL3_entry (hj : t.l2Child k j = none) (p : Path ι) :
    (growL3 c k j t).entry c p = t.entry c p := by
  simp only [Tables.entry, growL3_child hw hk]
  by_cases hp : p.1 = i ∧ p.2.1 = j
  · rw [if_pos hp, hp.1, hp.2, child_of_l1 hk, hj]
    simp [growL3]
  · rw [if_neg hp]
    cases hm : t.child p.1 p.2.1 with
    | none => rfl
    | some m =>
      have hne : m ≠ t.l3Used := (hw.l3_lt _ _ m hm).ne
      simp [growL3, hne]

end GrowL3

/-- What `ensureL3` establishes for the entry `j` of the table of `i`, and what it leaves alone. -/
structure EnsuredL3 (c : Pools D A) (i j : ι) (t : Tables ι D) (m : ℕ) (t' : Tables ι D) : Prop where
  wf : Wf c t'
  child_self : t'.child i j = some m
  l1Child : t'.l1Child = t.l1Child
  child_isSome : ∀ i' j', (t'.child i' j').isSome ↔ (t.child i' j').isSome ∨ (i' = i ∧ j' = j)
  entry : ∀ p, t'.entry c p = t.entry c p

/-- A third-level table is found or allocated. -/
theorem ensureL3_cases {k m : ℕ} {j : ι} (h : ensureL3 c k j t = some (m, t')) :
    (t.l2Child k j = some m ∧ t' = t) ∨
      (t.l2Child k j = none ∧ t.l3Used < c.n3 ∧ m = t.l3Used ∧ t' = growL3 c k j t) := by
  cases hj : t.l2Child k j with
  | some m' =>
    simp only [ensureL3, hj, Option.some.injEq, Prod.mk.injEq] at h
    obtain ⟨rfl, rfl⟩ := h
    exact Or.inl ⟨rfl, rfl⟩
  | none =>
    rw [ensureL3_of_none hj] at h
    split at h
    · cases h
    · rename_i hn
      simp only [Option.some.injEq, Prod.mk.injEq] at h
      obtain ⟨rfl, rfl⟩ := h
      exact Or.inr ⟨rfl, not_le.mp hn, rfl, rfl⟩

theorem ensureL3_child {i j : ι} {k m : ℕ} (hk : t.l1Child i = some k)
    (h : ensureL3 c k j t = some (m, t')) : t'.child i j = some m := by
  rcases ensureL3_cases h with ⟨hj, rfl⟩ | ⟨-, -, rfl, rfl⟩
  · exact (child_of_l1 hk j).trans hj
  · have hk' : (growL3 c k j t).l1Child i = some k := hk
    rw [child_of_l1 hk']
    simp [growL3]

theorem ensureL3_spec {i j : ι} {k m : ℕ} (hw : Wf c t) (hk : t.l1Child i = some k)
    (h : ensureL3 c k j t = some (m, t')) : EnsuredL3 c i j t m t' := by
  have hself := ensureL3_child hk h
  rcases ensureL3_cases h with ⟨hj, rfl⟩ | ⟨hj, hn, rfl, rfl⟩
  · refine ⟨hw, hself, rfl, fun i' j' => ⟨Or.inl, ?_⟩, fun _ => rfl⟩
    rintro (h | ⟨rfl, rfl⟩)
    · exact h
    · rw [hself]; rfl
  · refine ⟨growL3_wf hw hk hj hn, hself, rfl, ?_, growL3_entry hw hk hj⟩
    intro i' j'
    rw [growL3_child hw hk]
    by_cases hp : i' = i ∧ j' = j <;> simp [hp]

theorem ensureL3_isSome_iff {k : ℕ} {j : ι} :
    (ensureL3 c k j t).isSome ↔ (t.l2Child k j = none → t.l3Used < c.n3) := by
  cases hj : t.l2Child k j with
  | some m => simp [ensureL3, hj]
  | none =>
    rw [ensureL3_of_none hj]
    split <;> simp <;> omega

/-! ## Writing pages -/

/-- The tables after the page `p` was written. -/
structure Mapped (c : Pools D A) (p : Path ι) (d : D) (t t' : Tables ι D) : Prop where
  wf : Wf c t'
  entry : t'.entry c = Function.update (t.entry c) p d
  l1Child_isSome : ∀ i, (t'.l1Child i).isSome ↔ (t.l1Child i).isSome ∨ i = p.1
  child_isSome : ∀ i j, (t'.child i j).isSome ↔ (t.child i j).isSome ∨ (i = p.1 ∧ j = p.2.1)

theorem writeL3_child (m : ℕ) (l : ι) (d : D) (i j : ι) :
    (writeL3 m l d t).child i j = t.child i j := rfl

theorem writeL3_wf (hw : Wf c t) (m : ℕ) (l : ι) (d : D) : Wf c (writeL3 m l d t) :=
  ⟨hw.l1_entry, hw.l2_entry, hw.l2_lt, hw.l2_inj, hw.l2_onto, hw.l3_lt, hw.l3_inj, hw.l3_onto,
    hw.used2, hw.used3⟩

/-- Writing one entry of one third-level table changes one page, since the table has one parent. -/
theorem writeL3_entry {i j : ι} {m : ℕ} (hw : Wf c t) (hm : t.child i j = some m) (l : ι) (d : D) :
    (writeL3 m l d t).entry c = Function.update (t.entry c) (i, j, l) d := by
  funext p
  by_cases hp : p = (i, j, l)
  · subst hp
    rw [entry_of_child ((writeL3_child m l d i j).trans hm)]
    simp [writeL3]
  · rw [Function.update_of_ne hp]
    cases hm' : t.child p.1 p.2.1 with
    | none => rw [entry_of_none hm', entry_of_none ((writeL3_child m l d _ _).trans hm')]
    | some m' =>
      rw [entry_of_child hm', entry_of_child ((writeL3_child m l d _ _).trans hm')]
      by_cases hmm : m' = m
      · subst hmm
        obtain ⟨hi, hj⟩ := hw.l3_inj _ _ i j m' hm' hm
        have hl : p.2.2 ≠ l := fun h => hp (by rw [← hi, ← hj, ← h])
        simp [writeL3, hl]
      · simp [writeL3, hmm]

/-- Whatever the tables were, the page that was just written holds its descriptor. -/
theorem mapPage_entry_self {p : Path ι} {d : D} (h : mapPage c p d t = some t') : t'.entry c p = d := by
  obtain ⟨i, j, l⟩ := p
  obtain ⟨⟨k, t₁⟩, h₁, h⟩ := Option.bind_eq_some_iff.mp h
  obtain ⟨⟨m, t₂⟩, h₂, h⟩ := Option.bind_eq_some_iff.mp h
  cases h
  have hm : t₂.child i j = some m := ensureL3_child (ensureL2_l1Child h₁) h₂
  rw [entry_of_child (p := (i, j, l)) ((writeL3_child m l d i j).trans hm)]
  simp [writeL3]

theorem mapPage_spec {p : Path ι} {d : D} (hw : Wf c t) (h : mapPage c p d t = some t') :
    Mapped c p d t t' := by
  obtain ⟨i, j, l⟩ := p
  obtain ⟨⟨k, t₁⟩, h₁, h⟩ := Option.bind_eq_some_iff.mp h
  obtain ⟨⟨m, t₂⟩, h₂, h⟩ := Option.bind_eq_some_iff.mp h
  cases h
  have e₁ := ensureL2_spec hw h₁
  have e₂ := ensureL3_spec e₁.wf e₁.l1Child_self h₂
  refine ⟨writeL3_wf e₂.wf _ _ _, ?_, ?_, ?_⟩
  · rw [writeL3_entry e₂.wf e₂.child_self]
    congr 1
    funext p
    rw [e₂.entry]
    simp only [Tables.entry, e₁.child, e₁.l3]
  · intro i'
    exact (by rw [e₂.l1Child] : (t₂.l1Child i').isSome ↔ (t₁.l1Child i').isSome).trans
      (e₁.l1Child_isSome i')
  · intro i' j'
    exact (e₂.child_isSome i' j').trans (by rw [e₁.child])

theorem mapPage_isSome_iff {p : Path ι} {d : D} (hw : Wf c t) :
    (mapPage c p d t).isSome ↔
      (t.l1Child p.1 = none → t.l2Used < c.n2) ∧ (t.child p.1 p.2.1 = none → t.l3Used < c.n3) := by
  obtain ⟨i, j, l⟩ := p
  rw [← ensureL2_isSome_iff]
  cases h₁ : ensureL2 c i t with
  | none => simp [mapPage, h₁]
  | some kt =>
    obtain ⟨k, t₁⟩ := kt
    have e₁ := ensureL2_spec hw h₁
    have h₂ := ensureL3_isSome_iff (c := c) (t := t₁) (k := k) (j := j)
    rw [← child_of_l1 e₁.l1Child_self, e₁.child, e₁.l3Used] at h₂
    simp only [Option.isSome_some, true_and]
    rw [← h₂]
    cases h₃ : ensureL3 c k j t₁ <;> simp [mapPage, h₁, h₃]

/-- The contents after a sequence of writes, the last write of a page winning. -/
def writeAll (e : Path ι → D) (ps : List (Path ι × D)) : Path ι → D :=
  ps.foldl (fun e p => Function.update e p.1 p.2) e

/-- The tables after a sequence of pages was written. -/
structure MappedAll (c : Pools D A) (ps : List (Path ι × D)) (t t' : Tables ι D) : Prop where
  wf : Wf c t'
  entry : t'.entry c = writeAll (t.entry c) ps
  l1Child_isSome : ∀ i, (t'.l1Child i).isSome ↔ (t.l1Child i).isSome ∨ i ∈ ps.map fun p => p.1.1
  child_isSome : ∀ i j, (t'.child i j).isSome ↔
    (t.child i j).isSome ∨ (i, j) ∈ ps.map fun p => (p.1.1, p.1.2.1)

theorem mapPages_spec {ps : List (Path ι × D)} (hw : Wf c t) (h : mapPages c ps t = some t') :
    MappedAll c ps t t' := by
  induction ps generalizing t with
  | nil =>
    cases h
    exact ⟨hw, rfl, by simp, by simp⟩
  | cons p ps ih =>
    rw [mapPages, List.foldlM_cons] at h
    obtain ⟨t₁, h₁, h⟩ := Option.bind_eq_some_iff.mp h
    have m₁ := mapPage_spec hw h₁
    have m₂ := ih m₁.wf h
    refine ⟨m₂.wf, ?_, ?_, ?_⟩
    · rw [m₂.entry, m₁.entry]
      rfl
    · intro i
      rw [m₂.l1Child_isSome, m₁.l1Child_isSome, List.map_cons, List.mem_cons, or_assoc]
    · intro i j
      rw [m₂.child_isSome, m₁.child_isSome, List.map_cons, List.mem_cons, Prod.mk.injEq, or_assoc]

/-- Sequences of pages that are written one after the other are one sequence. -/
theorem mapPages_flatMap {κ : Type*} (g : κ → List (Path ι × D)) (l : List κ) (t : Tables ι D) :
    mapPages c (l.flatMap g) t = l.foldlM (fun t k => mapPages c (g k) t) t := by
  induction l generalizing t with
  | nil => rfl
  | cons k l ih =>
    rw [List.flatMap_cons, mapPages, List.foldlM_append, List.foldlM_cons]
    congr 1
    funext t'
    exact ih t'

theorem writeAll_append (e : Path ι → D) (ps qs : List (Path ι × D)) :
    writeAll e (ps ++ qs) = writeAll (writeAll e ps) qs := List.foldl_append

theorem writeAll_of_not_mem {ps : List (Path ι × D)} {x : Path ι} (h : x ∉ ps.map Prod.fst)
    (e : Path ι → D) : writeAll e ps x = e x := by
  induction ps generalizing e with
  | nil => rfl
  | cons p ps ih =>
    rw [List.map_cons, List.mem_cons, not_or] at h
    rw [writeAll, List.foldl_cons, ← writeAll, ih h.2, Function.update_of_ne h.1]

/-- A written page holds one of the descriptors written to it. -/
theorem writeAll_of_mem {ps : List (Path ι × D)} {x : Path ι} (h : x ∈ ps.map Prod.fst)
    (e : Path ι → D) : ∃ p ∈ ps, p.1 = x ∧ writeAll e ps x = p.2 := by
  induction ps generalizing e with
  | nil => exact absurd h List.not_mem_nil
  | cons p ps ih =>
    by_cases hx : x ∈ ps.map Prod.fst
    · obtain ⟨q, hq, hpath, hval⟩ := ih hx (Function.update e p.1 p.2)
      exact ⟨q, List.mem_cons_of_mem _ hq, hpath, hval⟩
    · have hp : p.1 = x := by
        rw [List.map_cons, List.mem_cons] at h
        exact (h.resolve_right hx).symm
      refine ⟨p, List.mem_cons_self, hp, ?_⟩
      rw [writeAll, List.foldl_cons, ← writeAll, writeAll_of_not_mem hx, hp, Function.update_self]

/-- After a reset and a sequence of pages, a page holds one of the descriptors written to it, or
nothing was written to it and it is empty. -/
theorem mapPages_entry_cases {ps : List (Path ι × D)} (h : mapPages c ps (reset c t) = some t')
    (x : Path ι) :
    (∃ p ∈ ps, p.1 = x ∧ t'.entry c x = p.2) ∨ (∀ p ∈ ps, p.1 ≠ x) ∧ t'.entry c x = c.empty := by
  rw [(mapPages_spec (reset_wf t) h).entry]
  by_cases hx : x ∈ ps.map Prod.fst
  · exact Or.inl (writeAll_of_mem hx _)
  · refine Or.inr ⟨fun p hp hpath => hx (List.mem_map.mpr ⟨p, hp, hpath⟩), ?_⟩
    rw [writeAll_of_not_mem hx, reset_entry]

/-! ## Counting tables -/

/-- The first-level indices that a sequence of pages touches. -/
def roots (ps : List (Path ι × D)) : Finset ι := (ps.map fun p => p.1.1).toFinset

/-- The pairs of first- and second-level indices that a sequence of pages touches. -/
def branches (ps : List (Path ι × D)) : Finset (ι × ι) := (ps.map fun p => (p.1.1, p.1.2.1)).toFinset

/-- The pools are used exactly as far as the pages need them. -/
theorem mapPages_used {ps : List (Path ι × D)} (h : mapPages c ps (reset c t) = some t') :
    t'.l2Used = (roots ps).card ∧ t'.l3Used = (branches ps).card := by
  have hm := mapPages_spec (reset_wf t) h
  constructor
  · refine card_of_enumeration hm.wf.l2_lt hm.wf.l2_inj hm.wf.l2_onto ?_
    intro i
    rw [hm.l1Child_isSome, roots, List.mem_toFinset]
    simp [reset]
  · refine card_of_enumeration (f := fun q : ι × ι => t'.child q.1 q.2)
      (fun q => hm.wf.l3_lt q.1 q.2)
      (fun q q' m h h' => Prod.ext_iff.mpr (hm.wf.l3_inj q.1 q.2 q'.1 q'.2 m h h'))
      (?_) ?_
    · intro m hlt
      obtain ⟨i, j, h⟩ := hm.wf.l3_onto m hlt
      exact ⟨(i, j), h⟩
    · intro q
      rw [hm.child_isSome, branches, List.mem_toFinset]
      simp [reset, Tables.child]

/-- Mapping a page uses elements inside the pools only, whether it succeeds or runs out of tables on the
way. -/
def IndicesInPools (c : Pools D A) (t : Tables ι D) : Prop :=
  ∀ i j k t₁, ensureL2 c i t = some (k, t₁) →
    k < c.n2 ∧ ∀ m t₂, ensureL3 c k j t₁ = some (m, t₂) → m < c.n3

theorem Wf.indicesInPools (hw : Wf c t) : IndicesInPools c t := by
  intro i j k t₁ h₁
  have e₁ := ensureL2_spec hw h₁
  refine ⟨(e₁.wf.l2_lt i k e₁.l1Child_self).trans_le e₁.wf.used2, ?_⟩
  intro m t₂ h₂
  have e₂ := ensureL3_spec e₁.wf e₁.l1Child_self h₂
  exact (e₂.wf.l3_lt i j m e₂.child_self).trans_le e₂.wf.used3

/-- The pools after the pages `paths` were mapped: a second-level table for each first-level index, a
third-level table for each pair of indices. -/
structure PoolsExact (c : Pools D A) (paths : List (Path ι)) (t : Tables ι D) : Prop where
  l2Used : t.l2Used = (paths.map fun p => p.1).toFinset.card
  l3Used : t.l3Used = (paths.map fun p => (p.1, p.2.1)).toFinset.card
  inPools : IndicesInPools c t

theorem mapPages_poolsExact {ps : List (Path ι × D)} (h : mapPages c ps (reset c t) = some t') :
    PoolsExact c (ps.map Prod.fst) t' := by
  obtain ⟨h2, h3⟩ := mapPages_used h
  refine ⟨?_, ?_, (mapPages_spec (reset_wf t) h).wf.indicesInPools⟩
  · rw [h2, roots, List.map_map]
    rfl
  · rw [h3, branches, List.map_map]
    rfl

/-- There is room for one more element exactly when it is not new or the bound is not reached. -/
theorem card_insert_le_iff {κ : Type*} [DecidableEq κ] {F : Finset κ} {x : κ} {n : ℕ}
    (hle : F.card ≤ n) : (x ∉ F → F.card < n) ↔ (insert x F).card ≤ n := by
  by_cases hin : x ∈ F
  · rw [Finset.insert_eq_of_mem hin]
    exact iff_of_true (fun hx => absurd hin hx) hle
  · rw [Finset.card_insert_of_notMem hin]
    exact ⟨fun h => h hin, fun h _ => h⟩

/-- A sequence of pages can be written from a reset exactly when the pools have the tables it
needs. -/
theorem mapPages_isSome_iff (t : Tables ι D) (ps : List (Path ι × D)) :
    (mapPages c ps (reset c t)).isSome ↔ (roots ps).card ≤ c.n2 ∧ (branches ps).card ≤ c.n3 := by
  induction ps using List.reverseRecOn with
  | nil => simp [mapPages, roots, branches]
  | append_singleton ps p ih =>
    have hsplit : mapPages c (ps ++ [p]) (reset c t) =
        (mapPages c ps (reset c t)).bind (mapPage c p.1 p.2) := by
      simp [mapPages, List.foldlM_append]
    have hroots : roots (ps ++ [p]) = insert p.1.1 (roots ps) := by
      ext i; simp [roots]
    have hbranches : branches (ps ++ [p]) = insert (p.1.1, p.1.2.1) (branches ps) := by
      ext q; simp [branches]
    rw [hsplit, hroots, hbranches]
    cases hm : mapPages c ps (reset c t) with
    | none =>
      rw [hm] at ih
      simp only [Option.bind_none, Option.isSome_none, Bool.false_eq_true, false_iff] at ih ⊢
      rintro ⟨h2, h3⟩
      exact ih ⟨(Finset.card_le_card (Finset.subset_insert _ _)).trans h2,
        (Finset.card_le_card (Finset.subset_insert _ _)).trans h3⟩
    | some t' =>
      have hspec := mapPages_spec (reset_wf t) hm
      obtain ⟨hu2, hu3⟩ := mapPages_used hm
      have hle2 := hspec.wf.used2
      have hle3 := hspec.wf.used3
      have hnone2 : t'.l1Child p.1.1 = none ↔ p.1.1 ∉ roots ps := by
        rw [← not_iff_not, ← ne_eq, Option.ne_none_iff_isSome, hspec.l1Child_isSome, not_not, roots,
          List.mem_toFinset]
        simp [reset]
      have hnone3 : t'.child p.1.1 p.1.2.1 = none ↔ (p.1.1, p.1.2.1) ∉ branches ps := by
        rw [← not_iff_not, ← ne_eq, Option.ne_none_iff_isSome, hspec.child_isSome, not_not, branches,
          List.mem_toFinset]
        simp [reset, Tables.child]
      rw [Option.bind_some, mapPage_isSome_iff hspec.wf, hnone2, hnone3]
      rw [hu2] at hle2 ⊢
      rw [hu3] at hle3 ⊢
      exact and_congr (card_insert_le_iff hle2) (card_insert_le_iff hle3)

end Build

/-! ## The walk finds the contents -/

/-- No two tables of the builder have the same address. -/
structure Pools.Distinct (c : Pools D A) : Prop where
  inj2 : ∀ k k', k < c.n2 → k' < c.n2 → c.addr2 k = c.addr2 k' → k = k'
  inj3 : ∀ m m', m < c.n3 → m' < c.n3 → c.addr3 m = c.addr3 m' → m = m'
  root2 : ∀ k, k < c.n2 → c.addr2 k ≠ c.root
  root3 : ∀ m, m < c.n3 → c.addr3 m ≠ c.root
  sep : ∀ k m, k < c.n2 → m < c.n3 → c.addr2 k ≠ c.addr3 m

section Walk

variable [DecidableEq A] {other : A → ι → D} {t : Tables ι D}

theorem find_range {f : ℕ → A} {n k : ℕ} (hinj : ∀ k k', k < n → k' < n → f k = f k' → k = k')
    (hk : k < n) : (List.range n).find? (fun k' => f k' = f k) = some k := by
  cases h : (List.range n).find? fun k' => f k' = f k with
  | none => simpa using List.find?_eq_none.mp h k (List.mem_range.mpr hk)
  | some k' =>
    have hk' := List.mem_range.mp (List.mem_of_find?_eq_some h)
    have hf : f k' = f k := by simpa using List.find?_some h
    rw [hinj k' k hk' hk hf]

theorem read_root : t.read c other c.root = t.l1 := if_pos rfl

theorem read_addr2 (hc : c.Distinct) {k : ℕ} (hk : k < c.n2) :
    t.read c other (c.addr2 k) = t.l2 k := by
  rw [Tables.read, if_neg (hc.root2 k hk), find_range hc.inj2 hk]

theorem read_addr3 (hc : c.Distinct) {m : ℕ} (hm : m < c.n3) :
    t.read c other (c.addr3 m) = t.l3 m := by
  have hnone : (List.range c.n2).find? (fun k => c.addr2 k = c.addr3 m) = none :=
    List.find?_eq_none.mpr fun k hk => by simpa using hc.sep k m (List.mem_range.mp hk) hm
  rw [Tables.read, if_neg (hc.root3 m hm), hnone, find_range hc.inj3 hm]

/-- The hardware walk from the root finds the page that the pointers lead to. -/
theorem walk_eq {L : Type*} {decode : ℕ → D → Desc A L} (hw : Wf c t) (hc : c.Distinct)
    (hempty : ∀ n, decode n c.empty = .invalid)
    (hlink2 : ∀ k, k < c.n2 → decode 1 (c.link (c.addr2 k)) = .table (c.addr2 k))
    (hlink3 : ∀ m, m < c.n3 → decode 2 (c.link (c.addr3 m)) = .table (c.addr3 m)) (p : Path ι) :
    walk decode (t.read c other) c.root p = (decode 3 (t.entry c p)).page := by
  unfold walk
  rw [read_root, hw.l1_entry]
  cases hk : t.l1Child p.1 with
  | none => rw [entry_of_none (child_of_none hk _), Option.elim_none, hempty, hempty]; rfl
  | some k =>
    have hlt := (hw.l2_lt _ k hk).trans_le hw.used2
    simp only [Option.elim_some, hlink2 k hlt, read_addr2 hc hlt, hw.l2_entry _ k _ hk]
    cases hm : t.l2Child k p.2.1 with
    | none =>
      rw [entry_of_none ((child_of_l1 hk _).trans hm), Option.elim_none, hempty, hempty]; rfl
    | some m =>
      have hchild := (child_of_l1 hk p.2.1).trans hm
      have hlt3 := (hw.l3_lt _ _ m hchild).trans_le hw.used3
      simp only [Option.elim_some, hlink3 m hlt3, read_addr3 hc hlt3, entry_of_child hchild]

end Walk

/-! ## Loops over pages -/

section Loop

variable {w : ℕ} {σ : Type*} {body : BitVec w → σ → Option σ} {stride stop : BitVec w}

/-- A loop whose bound is a whole number of strides away visits each stride once, in order. -/
theorem strideLoop_eq_foldlM {n fuel : ℕ} {start : BitVec w} {s : σ} (hpos : 0 < stride.toNat)
    (hstop : stop.toNat = start.toNat + n * stride.toNat) (hfuel : n < fuel) :
    strideLoop body stride stop fuel start s =
      (List.range n).foldlM (fun s i => body (start + BitVec.ofNat w (i * stride.toNat)) s) s := by
  induction n generalizing start fuel s with
  | zero =>
    obtain ⟨fuel, rfl⟩ := Nat.exists_eq_succ_of_ne_zero (by omega : fuel ≠ 0)
    have hlt : ¬ start < stop := by rw [BitVec.lt_def]; omega
    rw [strideLoop, if_neg hlt]
    rfl
  | succ n ih =>
    obtain ⟨fuel, rfl⟩ := Nat.exists_eq_succ_of_ne_zero (by omega : fuel ≠ 0)
    rw [Nat.add_mul, Nat.one_mul] at hstop
    have hlt : start < stop := by rw [BitVec.lt_def]; omega
    have hnext : (start + stride).toNat = start.toNat + stride.toNat := by
      have := stop.isLt
      rw [BitVec.toNat_add, Nat.mod_eq_of_lt]
      omega
    have hzero : start + BitVec.ofNat w (0 * stride.toNat) = start := by simp
    rw [strideLoop, if_pos hlt, List.range_succ_eq_map, List.foldlM_cons, hzero]
    congr 1
    funext s'
    rw [List.foldlM_map, ih (by omega) (by omega)]
    congr 1
    funext s'' i
    have hshift : start + stride + BitVec.ofNat w (i * stride.toNat) =
        start + BitVec.ofNat w ((i + 1) * stride.toNat) := by
      rw [BitVec.add_assoc, Nat.add_mul, Nat.one_mul, Nat.add_comm (i * _), BitVec.ofNat_add,
        BitVec.ofNat_toNat, BitVec.setWidth_eq]
    rw [hshift]

/-- `start`, `start + stride` and so on below `stop`. -/
def strides (stride start stop : BitVec w) : List (BitVec w) :=
  (List.range ((stop.toNat - start.toNat) / stride.toNat)).map fun i =>
    start + BitVec.ofNat w (i * stride.toNat)

/-- Whatever its body does, the loop from `start` to `stop` runs it for the words `visits`, one after the
other, and ends. These are the multiples of `stride` between its bounds, each once and in increasing
order, and going on from one of them does not wrap around. -/
structure LoopVisits (stride start stop : BitVec w) (visits : List (BitVec w)) : Prop where
  runs : ∀ {σ : Type} (body : BitVec w → σ → Option σ) (fuel : ℕ) (s : σ), visits.length < fuel →
    strideLoop body stride stop fuel start s = visits.foldlM (fun s cur => body cur s) s
  mem : ∀ y, y ∈ visits ↔ y.toNat % stride.toNat = 0 ∧ start ≤ y ∧ y < stop
  increasing : visits.Pairwise (· < ·)
  no_wrap : ∀ y ∈ visits, y.toNat + stride.toNat < 2 ^ w

section Strides

variable {start : BitVec w}

theorem strides_length :
    (strides stride start stop).length = (stop.toNat - start.toNat) / stride.toNat := by
  rw [strides, List.length_map, List.length_range]

variable (hstart : start.toNat % stride.toNat = 0) (hstop : stop.toNat % stride.toNat = 0)
include hstart hstop

/-- The distance between the bounds is a whole number of strides, none when `stop` is below `start`. -/
theorem strides_length_mul :
    (strides stride start stop).length * stride.toNat = stop.toNat - start.toNat := by
  rw [strides_length]
  exact Nat.div_mul_cancel (Nat.dvd_sub (Nat.dvd_of_mod_eq_zero hstop) (Nat.dvd_of_mod_eq_zero hstart))

variable (hpos : 0 < stride.toNat)
include hpos

/-- Stride `i` of the loop is `i` strides behind `start` and leaves room for one more below `stop`. -/
theorem stride_toNat {i : ℕ} (hi : i < (strides stride start stop).length) :
    (start + BitVec.ofNat w (i * stride.toNat)).toNat = start.toNat + i * stride.toNat ∧
      start.toNat + i * stride.toNat + stride.toNat ≤ stop.toNat := by
  have hlen := strides_length_mul hstart hstop
  have hnext : (i + 1) * stride.toNat ≤ (strides stride start stop).length * stride.toNat :=
    Nat.mul_le_mul_right _ hi
  rw [Nat.add_mul, Nat.one_mul, hlen] at hnext
  have hlt := stop.isLt
  have hle : start.toNat + i * stride.toNat + stride.toNat ≤ stop.toNat := by omega
  refine ⟨?_, hle⟩
  rw [BitVec.toNat_add, BitVec.toNat_ofNat, Nat.add_mod_mod, Nat.mod_eq_of_lt]
  omega

theorem mem_strides {y : BitVec w} : y ∈ strides stride start stop ↔
    y.toNat % stride.toNat = 0 ∧ start ≤ y ∧ y < stop := by
  have hlen := strides_length_mul hstart hstop
  rw [BitVec.le_def, BitVec.lt_def]
  constructor
  · intro hy
    rw [strides] at hy
    obtain ⟨i, hi, rfl⟩ := List.mem_map.mp hy
    rw [List.mem_range, ← strides_length] at hi
    obtain ⟨haddr, hle⟩ := stride_toNat hstart hstop hpos hi
    rw [haddr, Nat.add_mul_mod_self_right]
    exact ⟨hstart, by omega, by omega⟩
  · rintro ⟨haligned, hlo, hhi⟩
    have hdiv : (y.toNat - start.toNat) / stride.toNat * stride.toNat = y.toNat - start.toNat :=
      Nat.div_mul_cancel
        (Nat.dvd_sub (Nat.dvd_of_mod_eq_zero haligned) (Nat.dvd_of_mod_eq_zero hstart))
    have hi : (y.toNat - start.toNat) / stride.toNat < (strides stride start stop).length := by
      refine Nat.lt_of_mul_lt_mul_right (a := stride.toNat) ?_
      rw [hdiv, hlen]
      omega
    refine List.mem_map.mpr ⟨_, List.mem_range.mpr (strides_length ▸ hi), BitVec.eq_of_toNat_eq ?_⟩
    rw [(stride_toNat hstart hstop hpos hi).1, hdiv]
    omega

theorem strides_increasing : (strides stride start stop).Pairwise (· < ·) := by
  rw [strides, List.pairwise_map]
  refine List.pairwise_lt_range.imp_of_mem ?_
  intro i j hi hj hij
  rw [List.mem_range, ← strides_length] at hi hj
  have hmul : i * stride.toNat < j * stride.toNat := Nat.mul_lt_mul_of_pos_right hij hpos
  rw [BitVec.lt_def, (stride_toNat hstart hstop hpos hi).1, (stride_toNat hstart hstop hpos hj).1]
  omega

/-- A loop between whole numbers of strides. -/
theorem loopVisits_strides : LoopVisits stride start stop (strides stride start stop) where
  runs := by
    intro σ body fuel s hfuel
    have hlen := strides_length_mul hstart hstop
    rw [strides_length] at hlen hfuel
    rw [strides, List.foldlM_map]
    by_cases hle : start.toNat ≤ stop.toNat
    · exact strideLoop_eq_foldlM hpos (by omega) hfuel
    · -- the loop ends at once
      have hcond : ¬ start < stop := by rw [BitVec.lt_def]; omega
      obtain ⟨fuel, rfl⟩ := Nat.exists_eq_succ_of_ne_zero (Nat.ne_zero_of_lt hfuel)
      rw [show stop.toNat - start.toNat = 0 by omega, Nat.zero_div, strideLoop, if_neg hcond]
      rfl
  mem _ := mem_strides hstart hstop hpos
  increasing := strides_increasing hstart hstop hpos
  no_wrap := by
    intro y hy
    rw [strides] at hy
    obtain ⟨i, hi, rfl⟩ := List.mem_map.mp hy
    rw [List.mem_range, ← strides_length] at hi
    obtain ⟨haddr, hle⟩ := stride_toNat hstart hstop hpos hi
    rw [haddr]
    exact hle.trans_lt stop.isLt

end Strides

end Loop

end Schism.PageTables
