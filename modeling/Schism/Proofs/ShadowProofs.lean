import Schism.Boot
import Schism.Proofs.PoolProofs
import Schism.Proofs.RebuildProofs

/-!
# The two trees of a builder

A builder goes by the child pointers, the hardware by the descriptors. After a reset and any sequence of
pages the two trees are the same one and no table hangs in it twice (`shadow_tree`). Nothing of an earlier
build is left in it, although the pools are not cleared (`rebuild_forgets`).
-/

namespace Schism

open PageTables S2

/-! ## The shadow tree -/

/-- The pointers and the descriptors in the tables `t`, which the pages `paths` were written to after a
reset of `t₀`. -/
structure ShadowTree (c : Pools U64 U64) (paths : List (Path (BitVec 9)))
    (t₀ t : Tables (BitVec 9) U64) : Prop where
  l1_valid : ∀ i, (t.l1Child i).isSome ↔ (t.l1 i).getLsbD 0 = true
  l1_desc : ∀ i k, t.l1Child i = some k → t.l1 i = c.addr2 k ||| 0b11
  l1_zero : ∀ i, t.l1Child i = none → t.l1 i = 0
  l2_valid : ∀ k < t.l2Used, ∀ j, (t.l2Child k j).isSome ↔ (t.l2 k j).getLsbD 0 = true
  l2_desc : ∀ k < t.l2Used, ∀ j m, t.l2Child k j = some m → t.l2 k j = c.addr3 m ||| 0b11
  l2_zero : ∀ k < t.l2Used, ∀ j, t.l2Child k j = none → t.l2 k j = 0
  l2_allocated : ∀ i k, t.l1Child i = some k → k < t.l2Used ∧ k < c.n2
  l3_allocated : ∀ k < t.l2Used, ∀ j m, t.l2Child k j = some m → m < t.l3Used ∧ m < c.n3
  l2_unshared : ∀ i i' k, t.l1Child i = some k → t.l1Child i' = some k → i = i'
  l3_unshared : ∀ k < t.l2Used, ∀ k' < t.l2Used, ∀ j j' m,
    t.l2Child k j = some m → t.l2Child k' j' = some m → k = k' ∧ j = j'
  /-- In an allocated table only the pages of the sequence are not zero. -/
  l3_zero : ∀ i j m, t.child i j = some m → ∀ l, (i, j, l) ∉ paths → t.l3 m l = 0
  /-- The pool elements that are not allocated are as they were before the reset. -/
  untouched : Untouched (reset c t₀) t
  unallocated_zero : t₀ = S2Tables.cleared →
    (∀ k, t.l2Used ≤ k → ∀ j, t.l2 k j = 0 ∧ t.l2Child k j = none) ∧
      ∀ m, t.l3Used ≤ m → ∀ l, t.l3 m l = 0

section Tree

variable {c : Pools U64 U64} {t₀ t : Tables (BitVec 9) U64}

/-- An allocated second-level table is that of some first-level entry. -/
theorem child_of_allocated (hw : Wf c t) {k : ℕ} (hk : k < t.l2Used) :
    ∃ i, t.l1Child i = some k ∧ ∀ j, t.child i j = t.l2Child k j := by
  obtain ⟨i, hi⟩ := hw.l2_onto k hk
  exact ⟨i, hi, child_of_l1 hi⟩

/-- An entry that is the descriptor of its child, or zero without one, is valid when it has one. -/
theorem entry_valid {child : Option ℕ} {desc : U64} {addr : ℕ → U64}
    (hdesc : ∀ k, child = some k → desc = addr k ||| 0b11) (hzero : child = none → desc = 0) :
    child.isSome ↔ desc.getLsbD 0 = true := by
  cases hchild : child with
  | none => simp [hzero hchild]
  | some k => simp [hdesc k hchild]

/-- Elements that a builder did not take from cleared pools are zero. -/
theorem zero_of_untouched (h : Untouched (reset c S2Tables.cleared) t) :
    (∀ k, t.l2Used ≤ k → ∀ j, t.l2 k j = 0 ∧ t.l2Child k j = none) ∧
      ∀ m, t.l3Used ≤ m → ∀ l, t.l3 m l = 0 := by
  constructor
  · intro k hk j
    rw [h.l2 k hk, h.l2Child k hk]
    exact ⟨rfl, rfl⟩
  · intro m hm l
    rw [h.l3 m hm]
    rfl

variable (hempty : c.empty = 0)
  (hlink : ∀ a : U64, a.toNat % 0x1000 = 0 → a.toNat < 2 ^ 48 → c.link a = a ||| 0b11)
  (h2 : ∀ k < c.n2, (c.addr2 k).toNat % 0x1000 = 0 ∧ (c.addr2 k).toNat < 2 ^ 48)
  (h3 : ∀ m < c.n3, (c.addr3 m).toNat % 0x1000 = 0 ∧ (c.addr3 m).toNat < 2 ^ 48)

include hempty hlink h2 in
/-- Each first-level descriptor is that of the entry's child, or zero without one. -/
theorem l1_desc_of_wf (hw : Wf c t) : (∀ i k, t.l1Child i = some k → t.l1 i = c.addr2 k ||| 0b11) ∧
    ∀ i, t.l1Child i = none → t.l1 i = 0 := by
  constructor
  · intro i k hk
    obtain ⟨haligned, hlow⟩ := h2 k ((hw.l2_lt i k hk).trans_le hw.used2)
    rw [hw.l1_entry, hk, Option.elim_some, hlink _ haligned hlow]
  · intro i hi
    rw [hw.l1_entry, hi, Option.elim_none, hempty]

include hempty hlink h3 in
/-- The same in an allocated second-level table, whose children are allocated. -/
theorem l2_desc_of_wf (hw : Wf c t) {k : ℕ} (hk : k < t.l2Used) :
    (∀ j m, t.l2Child k j = some m →
      t.l2 k j = c.addr3 m ||| 0b11 ∧ m < t.l3Used ∧ m < c.n3) ∧
    ∀ j, t.l2Child k j = none → t.l2 k j = 0 := by
  obtain ⟨i, hi, hchild⟩ := child_of_allocated hw hk
  constructor
  · intro j m hm
    have hlt : m < t.l3Used := hw.l3_lt i j m ((hchild j).trans hm)
    obtain ⟨haligned, hlow⟩ := h3 m (hlt.trans_le hw.used3)
    refine ⟨?_, hlt, hlt.trans_le hw.used3⟩
    rw [hw.l2_entry i k j hi, hm, Option.elim_some, hlink _ haligned hlow]
  · intro j hj
    rw [hw.l2_entry i k j hi, hj, Option.elim_none, hempty]

include hempty hlink h2 h3 in
theorem mapPages_shadowTree {ps : List (Path (BitVec 9) × U64)}
    (h : mapPages c ps (reset c t₀) = some t) : ShadowTree c (ps.map Prod.fst) t₀ t := by
  have hw : Wf c t := (mapPages_spec (reset_wf t₀) h).wf
  have hun : Untouched (reset c t₀) t := mapPages_untouched (reset_wf t₀) h
  obtain ⟨hdesc, hzero⟩ := l1_desc_of_wf hempty hlink h2 hw
  have hsecond := fun k hk => l2_desc_of_wf (k := k) hempty hlink h3 hw hk
  refine
    { l1_valid := fun i => entry_valid (hdesc i) (hzero i)
      l1_desc := hdesc
      l1_zero := hzero
      l2_valid := fun k hk j =>
        entry_valid (fun m hm => ((hsecond k hk).1 j m hm).1) ((hsecond k hk).2 j)
      l2_desc := fun k hk j m hm => ((hsecond k hk).1 j m hm).1
      l2_zero := fun k hk => (hsecond k hk).2
      l2_allocated := ?_
      l3_allocated := fun k hk j m hm => ((hsecond k hk).1 j m hm).2
      l2_unshared := hw.l2_inj
      l3_unshared := ?_
      l3_zero := ?_
      untouched := hun
      unallocated_zero := ?_ }
  · intro i k hk
    have hlt := hw.l2_lt i k hk
    exact ⟨hlt, hlt.trans_le hw.used2⟩
  · intro k hk k' hk' j j' m hm hm'
    obtain ⟨i, hi, hchild⟩ := child_of_allocated hw hk
    obtain ⟨i', hi', hchild'⟩ := child_of_allocated hw hk'
    -- the two entries hang below the same first-level entry
    obtain ⟨rfl, hj⟩ := hw.l3_inj i j i' j' m ((hchild j).trans hm) ((hchild' j').trans hm')
    exact ⟨Option.some.inj (hi.symm.trans hi'), hj⟩
  · intro i j m hm l hpath
    have hentry : t.entry c (i, j, l) = t.l3 m l := entry_of_child hm
    rw [← hentry, ← hempty]
    rcases mapPages_entry_cases h (i, j, l) with ⟨p, hp, heq, -⟩ | ⟨-, hentry'⟩
    · exact absurd (List.mem_map.mpr ⟨p, hp, heq⟩) hpath
    · exact hentry'
  · rintro rfl
    exact zero_of_untouched hun

end Tree

/-- In both builders the pointers and the descriptors stay one unshared tree, for every sequence of page
mappings after a reset, and what is not allocated in it is zero. -/
theorem shadow_tree (L : S2Layout) (E : El2Layout) :
    (∀ ps t₀ t, S2PageCall.runAll L ps (s2_tables_reset L t₀) = some t →
      ShadowTree L.pools (ps.map fun p => s2Path p.ipa) t₀ t) ∧
    (∀ ps t₀ t, El2PageCall.runAll E ps (El2.el2_mmu_init E t₀) = some t →
      ShadowTree E.pools (ps.map fun p => s2Path p.va) t₀ t) := by
  constructor
  · intro ps t₀ t h
    have hpages := (S2PageCall.runAll_eq L ps _).symm.trans h
    have htree := mapPages_shadowTree (c := L.pools) rfl (fun _ => L.link_eq)
      (fun _ => L.addr2_aligned) (fun _ => L.addr3_aligned) hpages
    rwa [S2PageCall.pages_paths] at htree
  · intro ps t₀ t h
    have hpages := (El2PageCall.runAll_eq E ps _).symm.trans h
    have htree := mapPages_shadowTree (c := E.pools) rfl (fun _ ha _ => E.link_eq ha)
      (fun _ => E.addr2_aligned) (fun _ => E.addr3_aligned) hpages
    rwa [El2PageCall.pages_paths] at htree

/-- Two pages of the same 2 MB region and one of the next. -/
def imagePages : List El2PageCall :=
  [⟨0x401ff000, 0x401ff000, NORMAL_WB, true, true⟩,
    ⟨0x40200000, 0x40200000, NORMAL_WB, true, false⟩,
    ⟨0x401fe000, 0x401fe000, NORMAL_WB, false, false⟩]

theorem shadow_tree_boundary :
    (∃ t, S2PageCall.runAll packedLayout boundaryPages
        (s2_tables_reset packedLayout S2Tables.cleared) = some t ∧
      ShadowTree packedLayout.pools (boundaryPages.map fun p => s2Path p.ipa) S2Tables.cleared t) ∧
    ∃ t, El2PageCall.runAll unalignedTables imagePages
        (El2.el2_mmu_init unalignedTables S2Tables.cleared) = some t ∧
      ShadowTree unalignedTables.pools (imagePages.map fun p => s2Path p.va) S2Tables.cleared t := by
  obtain ⟨hs2, hel2⟩ := shadow_tree packedLayout unalignedTables
  constructor
  · obtain ⟨t, ht⟩ := Option.isSome_iff_exists.mp (by decide : (S2PageCall.runAll packedLayout
      boundaryPages (s2_tables_reset packedLayout S2Tables.cleared)).isSome)
    exact ⟨t, ht, hs2 _ _ _ ht⟩
  · obtain ⟨t, ht⟩ := Option.isSome_iff_exists.mp (by decide : (El2PageCall.runAll unalignedTables
      imagePages (El2.el2_mmu_init unalignedTables S2Tables.cleared)).isSome)
    exact ⟨t, ht, hel2 _ _ _ ht⟩

/-! ## Building again -/

/-- A call of `s2_build_tables_identity`. -/
def S2Args.build (L : S2Layout) (a : S2Args) (t : S2Tables) : Option S2Tables :=
  s2_build_tables_identity L a.ipa a.pa a.vm_size a.vm_count a.guard_bytes a.read a.write a.exec t

def S2Args.buildAll (L : S2Layout) (as : List S2Args) (t : S2Tables) : Option S2Tables :=
  as.foldlM (fun t a => a.build L t) t

/-- A build starts from a reset: builders that differ in what an earlier build left agree after it. -/
theorem S2Args.build_sameTree {L : S2Layout} {a : S2Args} {t₀ t : S2Tables} (hcount : a.vm_count ≠ 0)
    (hsize : a.vm_size ≠ 0) (h : a.build L t₀ = some t) (t₀' : S2Tables) :
    Wf L.pools t ∧ ∃ t', a.build L t₀' = some t' ∧ Wf L.pools t' ∧ SameTree t t' := by
  have hbuild : ∀ t, a.build L t = _ := s2_build_eq L hcount hsize
  rw [hbuild] at h
  obtain ⟨t', h', hsame⟩ := (reset_sameTree t₀ t₀').mapPages (reset_wf t₀) h
  exact ⟨(mapPages_spec (reset_wf t₀) h).wf, t', (hbuild t₀').trans h',
    (mapPages_spec (reset_wf t₀') h').wf, hsame⟩

/-- Builders that agree translate alike. -/
theorem s2_walk_sameTree {L : S2Layout} {t t' : S2Tables} (hw : Wf L.pools t) (hw' : Wf L.pools t')
    (h : SameTree t t') (other : U64 → BitVec 9 → U64) {vttbr : U64}
    (hv : vttbr &&& oaMask = L.s2_l1) (x : U64) :
    s2_walk L other t vttbr x = s2_walk L other t' vttbr x := by
  by_cases hx : x.toNat < 2 ^ 39
  · rw [s2_walk_eq hw hv hx, s2_walk_eq hw' hv hx, h.entry hw]
  · rw [s2_walk, s2_walk, if_pos (not_lt.mp hx), if_pos (not_lt.mp hx)]

/-- The last build of a sequence yields the translation, and the root and allocated tables, that it
yields alone from cleared memory. -/
theorem rebuild_forgets (L : S2Layout) (earlier : List S2Args) (last : S2Args) (t₀ t : S2Tables)
    (hcount : last.vm_count ≠ 0) (hsize : last.vm_size ≠ 0)
    (h : S2Args.buildAll L (earlier ++ [last]) t₀ = some t) :
    ∃ t', last.build L S2Tables.cleared = some t' ∧ SameTree t t' ∧
      ∀ other vttbr, vttbr &&& oaMask = L.s2_l1 → ∀ x,
        s2_walk L other t vttbr x = s2_walk L other t' vttbr x := by
  rw [S2Args.buildAll, List.foldlM_append] at h
  obtain ⟨t₁, -, hlast⟩ := Option.bind_eq_some_iff.mp h
  obtain ⟨t₂, hlast, hnil⟩ := Option.bind_eq_some_iff.mp hlast
  cases hnil
  obtain ⟨hw, t', hbuild, hw', hsame⟩ :=
    S2Args.build_sameTree hcount hsize hlast S2Tables.cleared
  exact ⟨t', hbuild, hsame, fun other _ hv x => s2_walk_sameTree hw hw' hsame other hv x⟩

/-- Three slots across 2 MB boundaries. -/
def threeSlots : S2Args := ⟨0x401fe000, 0x801fe000, 0x4800, 3, 0x2000, 1, 1, 0⟩

/-- One read-only page in another region, whose tables reuse pool elements of the first slot. -/
def oneSlot : S2Args := ⟨0x80000000, 0xc0000000, 0x1000, 1, 0, 1, 0, 0⟩

theorem rebuild_forgets_three : ∃ t t',
    S2Args.buildAll packedLayout ([threeSlots] ++ [oneSlot]) S2Tables.cleared = some t ∧
    oneSlot.build packedLayout S2Tables.cleared = some t' ∧ SameTree t t' ∧
    ∀ x, s2_walk packedLayout (fun _ _ => 0) t packedLayout.s2_l1 x =
      s2_walk packedLayout (fun _ _ => 0) t' packedLayout.s2_l1 x := by
  obtain ⟨t₁, h₁⟩ := slotWindow_three.build_returns 1 1 0 packedLayout S2Tables.cleared
  have hbuild₁ : threeSlots.build packedLayout S2Tables.cleared = some t₁ :=
    (s2_build_eq packedLayout (by decide) (by decide) _).trans h₁
  have hreturns : (oneSlot.build packedLayout t₁).isSome := by
    rw [S2Args.build, s2_build_eq packedLayout (by decide) (by decide), mapPages_isSome_iff]
    decide
  obtain ⟨t, hbuild⟩ := Option.isSome_iff_exists.mp hreturns
  have hall : S2Args.buildAll packedLayout ([threeSlots] ++ [oneSlot]) S2Tables.cleared = some t := by
    simp only [S2Args.buildAll, List.cons_append, List.nil_append, List.foldlM_cons, hbuild₁,
      List.foldlM_nil, Option.bind_eq_bind, Option.bind_some, hbuild]
    rfl
  obtain ⟨t', halone, hsame, hwalk⟩ := rebuild_forgets packedLayout [threeSlots] oneSlot
    S2Tables.cleared t (by decide) (by decide) hall
  exact ⟨t, t', hall, halone, hsame, hwalk _ _ (by decide)⟩

end Schism
