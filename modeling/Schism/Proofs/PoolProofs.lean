import Schism.Proofs.El2CallsProofs
import Schism.Proofs.SlotProofs

/-!
# How far the table pools are used

Both builders take one second-level table for each 1 GB region and one third-level table for each 2 MB
region they map a page in, however the ranges overlap and in whatever order they come. So a build halts
exactly when the regions outnumber the tables (`pool_use_exact`).
-/

namespace Schism

open PageTables S2

/-! ## Sequences of pages -/

/-- The arguments of a call of `s2_map_page`. -/
structure S2PageCall where
  ipa : U64
  pa : U64
  read : U8
  write : U8
  exec : U8

def S2PageCall.runAll (L : S2Layout) (ps : List S2PageCall) (t : S2Tables) : Option S2Tables :=
  ps.foldlM (fun t p => s2_map_page L p.ipa p.pa p.read p.write p.exec t) t

/-- The arguments of a call of EL2's `map_page`. -/
structure El2PageCall where
  va : U64
  pa : U64
  attr_idx : U8
  ro : Bool
  exec : Bool

def El2PageCall.runAll (L : El2Layout) (ps : List El2PageCall) (t : El2Tables) : Option El2Tables :=
  ps.foldlM (fun t p => El2.map_page L p.va p.pa p.attr_idx p.ro p.exec t) t

/-- The pages that a sequence of calls writes. -/
def S2PageCall.pages (ps : List S2PageCall) : List (Path (BitVec 9) × U64) :=
  ps.map fun p => (s2Path p.ipa, page_desc p.pa p.read p.write p.exec)

def El2PageCall.pages (ps : List El2PageCall) : List (Path (BitVec 9) × U64) :=
  ps.map fun p => (s2Path p.va, El2.page_desc p.pa p.attr_idx p.ro p.exec)

theorem S2PageCall.runAll_eq (L : S2Layout) (ps : List S2PageCall) (t : S2Tables) :
    S2PageCall.runAll L ps t = mapPages L.pools (S2PageCall.pages ps) t := by
  rw [mapPages, S2PageCall.pages, List.foldlM_map]
  rfl

theorem El2PageCall.runAll_eq (L : El2Layout) (ps : List El2PageCall) (t : El2Tables) :
    El2PageCall.runAll L ps t = mapPages L.pools (El2PageCall.pages ps) t := by
  rw [mapPages, El2PageCall.pages, List.foldlM_map]
  rfl

theorem S2PageCall.pages_paths (ps : List S2PageCall) :
    (S2PageCall.pages ps).map Prod.fst = ps.map fun p => s2Path p.ipa := by
  rw [S2PageCall.pages, List.map_map]
  rfl

theorem El2PageCall.pages_paths (ps : List El2PageCall) :
    (El2PageCall.pages ps).map Prod.fst = ps.map fun p => s2Path p.va := by
  rw [El2PageCall.pages, List.map_map]
  rfl

theorem s2_pages_exact {L : S2Layout} {ps : List S2PageCall} {t₀ t : S2Tables}
    (h : S2PageCall.runAll L ps (s2_tables_reset L t₀) = some t) :
    PoolsExact L.pools (ps.map fun p => s2Path p.ipa) t := by
  rw [S2PageCall.runAll_eq] at h
  have hexact := mapPages_poolsExact h
  rwa [S2PageCall.pages_paths] at hexact

theorem el2_pages_exact {L : El2Layout} {ps : List El2PageCall} {t₀ t : El2Tables}
    (h : El2PageCall.runAll L ps (El2.el2_mmu_init L t₀) = some t) :
    PoolsExact L.pools (ps.map fun p => s2Path p.va) t := by
  rw [El2PageCall.runAll_eq] at h
  have hexact := mapPages_poolsExact h
  rwa [El2PageCall.pages_paths] at hexact

theorem el2_calls_exact {L : El2Layout} {calls : List MapCall} {t₀ t : El2Tables}
    (h : MapCall.runAll L calls (El2.el2_mmu_init L t₀) = some t) :
    PoolsExact L.pools (calls.flatMap fun k => rangePaths k.va_start k.size) t := by
  rw [MapCall.runAll_eq] at h
  have hexact := mapPages_poolsExact h
  simp only [List.map_flatMap, MapCall.pages_paths] at hexact
  exact hexact

/-! ## Builds that halt -/

section Build

variable {L : S2Layout} {ipa pa vm_size guard_bytes : U64} {vm_count : U32} {read write exec : U8}
  (hend : ∀ k < vm_count.toNat, pageRound (slotEnd ipa vm_size guard_bytes k) ≤ 2 ^ 39)

/-- The regions of `2^shift` bytes that the rounded slots touch. -/
def slotsTouched (ipa vm_size : U64) (vm_count : U32) (guard_bytes : U64) (shift : ℕ) : Finset ℕ :=
  touched (fun x => ∃ k < vm_count.toNat, InExtent ipa vm_size guard_bytes k x) shift

include hend

theorem mem_slotPages_low (hs : vm_size ≠ 0) {x : U64} (hx : x.toNat < 2 ^ 39) :
    s2Path x ∈ (slotPages ipa pa vm_size vm_count guard_bytes read write exec).map Prod.fst ↔
      ∃ k < vm_count.toNat, InExtent ipa vm_size guard_bytes k x.toNat := by
  rw [mem_slotPages_paths]
  constructor
  · rintro ⟨k, hk, hmem⟩
    exact ⟨k, hk, (mem_slotPaths_low hs (hend k hk) hx).mp hmem⟩
  · rintro ⟨k, hk, hin⟩
    exact ⟨k, hk, (mem_slotPaths_low hs (hend k hk) hx).mpr hin⟩

/-- The builder returns exactly when its slots touch no more regions than there are tables. -/
theorem build_isSome_iff (t₀ : S2Tables) :
    (s2_build_tables_identity L ipa pa vm_size vm_count guard_bytes read write exec t₀).isSome ↔
      (slotsTouched ipa vm_size vm_count guard_bytes 30).card ≤ S2_MAX_L2_TABLES ∧
        (slotsTouched ipa vm_size vm_count guard_bytes 21).card ≤ S2_MAX_L3_TABLES := by
  by_cases hzero : vm_count = 0 ∨ vm_size = 0
  · -- no slot, so no region
    have hempty : ∀ shift, slotsTouched ipa vm_size vm_count guard_bytes shift = ∅ := by
      intro shift
      refine Finset.eq_empty_of_forall_notMem ?_
      intro r hr
      obtain ⟨x, -, ⟨k, hk, hs, -⟩, -⟩ := mem_touched.mp hr
      exact hs (slot_empty hzero hk)
    rw [s2_build_tables_identity, if_pos hzero, hempty, hempty, Finset.card_empty]
    exact iff_of_true rfl ⟨Nat.zero_le _, Nat.zero_le _⟩
  · obtain ⟨hcount, hs⟩ := not_or.mp hzero
    have hregions : ∀ shift r, r ∈ slotsTouched ipa vm_size vm_count guard_bytes shift ↔
        ∃ x : U64, x.toNat < 2 ^ 39 ∧
          s2Path x ∈ (slotPages ipa pa vm_size vm_count guard_bytes read write exec).map Prod.fst ∧
          x.toNat / 2 ^ shift = r :=
      fun shift r => mem_touched_iff (fun _ => mem_slotPages_low hend hs) shift r
    rw [s2_build_eq L hcount hs, mapPages_isSome_iff, roots_card (hregions 30),
      branches_card (hregions 21)]
    rfl

end Build

/-- The pools of both builders are used exactly as far as the pages need them, for every sequence of page
mappings and of ranges after a reset, and no element outside a pool is ever used. A stage-2 build or a
sequence of `el2_map_range` calls below `2^39` halts exactly when it touches too many regions. -/
theorem pool_use_exact (L : S2Layout) (E : El2Layout) :
    (∀ ps t₀ t, S2PageCall.runAll L ps (s2_tables_reset L t₀) = some t →
      PoolsExact L.pools (ps.map fun p => s2Path p.ipa) t) ∧
    (∀ ps t₀ t, El2PageCall.runAll E ps (El2.el2_mmu_init E t₀) = some t →
      PoolsExact E.pools (ps.map fun p => s2Path p.va) t) ∧
    (∀ calls t₀ t, MapCall.runAll E calls (El2.el2_mmu_init E t₀) = some t →
      PoolsExact E.pools (calls.flatMap fun k => rangePaths k.va_start k.size) t) ∧
    (∀ ipa pa vm_size vm_count guard_bytes read write exec t₀,
      (∀ k < vm_count.toNat, pageRound (slotEnd ipa vm_size guard_bytes k) ≤ 2 ^ 39) →
      (s2_build_tables_identity L ipa pa vm_size vm_count guard_bytes read write exec t₀ = none ↔
        16 < (slotsTouched ipa vm_size vm_count guard_bytes 30).card ∨
          1024 < (slotsTouched ipa vm_size vm_count guard_bytes 21).card)) ∧
    (∀ (calls : List MapCall) t₀, (∀ k ∈ calls, k.VaFits) →
      (MapCall.runAll E calls (El2.el2_mmu_init E t₀) = none ↔
        16 < (regions calls 30).card ∨ 64 < (regions calls 21).card)) := by
  refine ⟨fun _ _ _ => s2_pages_exact, fun _ _ _ => el2_pages_exact, fun _ _ _ => el2_calls_exact,
    ?_, ?_⟩
  · intro ipa pa vm_size vm_count guard_bytes read write exec t₀ hend
    rw [← Option.not_isSome_iff_eq_none, build_isSome_iff hend, not_and_or, not_le, not_le]
    rfl
  · intro calls t₀ hfits
    rw [← Option.not_isSome_iff_eq_none, calls_isSome_iff hfits, not_and_or, not_le, not_le]
    rfl

/-- Seventeen slots, one in each of the first seventeen GB. -/
theorem seventeen_gigabytes : 16 < (slotsTouched 0 0x1000 17 0x3ffff000 30).card := by
  have hsub : Finset.range 17 ⊆ slotsTouched 0 0x1000 17 0x3ffff000 30 := by
    intro r hr
    rw [Finset.mem_range] at hr
    have hslot : ∀ r < 17, InExtent 0 0x1000 0x3ffff000 r (r * 2 ^ 30) := by decide
    exact mem_touched.mpr ⟨r * 2 ^ 30, by omega, ⟨r, hr, hslot r hr⟩,
      Nat.mul_div_cancel r (Nat.two_pow_pos 30)⟩
  exact lt_of_lt_of_le (by decide) (Finset.card_le_card hsub)

/-- Three pages on both sides of a 2 MB boundary. -/
def boundaryPages : List S2PageCall :=
  [⟨0x401ff000, 0x801ff000, 1, 1, 1⟩, ⟨0x40200000, 0x80200000, 1, 0, 0⟩, ⟨0x40201000, 0x80201000, 1, 1, 0⟩]

theorem pool_use_exact_seventeen :
    (∃ t, S2PageCall.runAll packedLayout boundaryPages
        (s2_tables_reset packedLayout S2Tables.cleared) = some t ∧ t.l2Used = 1 ∧ t.l3Used = 2) ∧
      s2_build_tables_identity packedLayout 0 0 0x1000 17 0x3ffff000 1 1 1 S2Tables.cleared = none ∧
      MapCall.runAll unalignedTables overlappingCalls
        (El2.el2_mmu_init unalignedTables S2Tables.cleared) ≠ none := by
  obtain ⟨hpages, -, -, hbuild, hcalls⟩ := pool_use_exact packedLayout unalignedTables
  refine ⟨?_, ?_, ?_⟩
  · have hreturns : (S2PageCall.runAll packedLayout boundaryPages
        (s2_tables_reset packedLayout S2Tables.cleared)).isSome := by decide
    obtain ⟨t, ht⟩ := Option.isSome_iff_exists.mp hreturns
    obtain ⟨h2, h3, -⟩ := hpages _ _ _ ht
    exact ⟨t, ht, h2.trans (by decide), h3.trans (by decide)⟩
  · refine (hbuild _ _ _ _ _ _ _ _ _ ?_).mpr (Or.inl seventeen_gigabytes)
    decide
  · intro hnone
    have hfit := overlappingCalls_fit
    rcases (hcalls _ _ fun k hk => MapCall.vaFits_of_inBounds
      fun _ => overlappingCalls_inBounds k hk).mp hnone with h | h
    · exact absurd hfit.1 (not_le.mpr h)
    · exact absurd hfit.2 (not_le.mpr h)

end Schism
