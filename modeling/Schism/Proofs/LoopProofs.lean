import Schism.Proofs.El2MmuProofs

/-!
# The mapping loops end

Both loops count in machine words up to a limit that may have wrapped around, and the two functions round
their bounds in different ways. For all arguments they visit the pages between the rounded bounds and end
(`mapping_loops`).
-/

namespace Schism

open PageTables S2

/-- The pages that `s2_map_identity_range` and `el2_map_range` map for `size` bytes at `start`. -/
structure MappingLoops (start size : U64) (pages : List U64) : Prop where
  empty : size = 0 → pages = []
  /-- The bounds of `s2_map_identity_range`. -/
  s2_loop : size ≠ 0 → LoopVisits S2_PAGE_SIZE (align_down start S2_PAGE_SIZE)
    (align_up (start + size) S2_PAGE_SIZE) pages
  /-- The bounds of `el2_map_range`. -/
  el2_loop : size ≠ 0 → LoopVisits PAGE_SIZE (start - (start &&& (PAGE_SIZE - 1)))
    ((start + size + PAGE_SIZE - 1) &&& PAGE_MASK) pages
  s2_range : ∀ L pa_start read write exec t,
    s2_map_identity_range L start pa_start size read write exec t =
      pages.foldlM (fun t cur => s2_map_page L cur
        (pa_start - (start - align_down start S2_PAGE_SIZE) + (cur - align_down start S2_PAGE_SIZE))
        read write exec t) t
  el2_range : ∀ L pa_start attr_idx ro exec t,
    El2.el2_map_range L start pa_start size attr_idx ro exec t =
      pages.foldlM (fun t cur => El2.map_page L cur
        (pa_start - (start &&& (PAGE_SIZE - 1)) + (cur - (start - (start &&& (PAGE_SIZE - 1)))))
        attr_idx ro exec t) t
  /-- Where the rounded end is a machine address, the pages are those that the range intersects. -/
  intersecting : start.toNat + size.toNat + 0xfff < 2 ^ 64 → ∀ y, y ∈ pages ↔ y.toNat % 0x1000 = 0 ∧
    ∃ b, start.toNat ≤ b ∧ b < start.toNat + size.toNat ∧ y.toNat ≤ b ∧ b < y.toNat + 0x1000

section Range

variable {start size : U64}

theorem rangeAddrs_of_zero (hs : size = 0) : rangeAddrs start size = [] := by
  rw [rangeAddrs, pageCount, if_pos hs]
  rfl

theorem rangeAddrs_eq_strides (hs : size ≠ 0) : rangeAddrs start size =
    strides S2_PAGE_SIZE (align_down start S2_PAGE_SIZE) (align_up (start + size) S2_PAGE_SIZE) := by
  rw [rangeAddrs, pageCount, if_neg hs]
  rfl

theorem rangeAddrs_visits (hs : size ≠ 0) : LoopVisits S2_PAGE_SIZE (align_down start S2_PAGE_SIZE)
    (align_up (start + size) S2_PAGE_SIZE) (rangeAddrs start size) := by
  rw [rangeAddrs_eq_strides hs]
  exact loopVisits_strides (align_down_mod start) (align_up_mod (start + size)) (by decide)

/-- There are at most as many pages as the address space has. -/
theorem rangeAddrs_length_lt : (rangeAddrs start size).length < 2 ^ 52 + 1 := by
  have hlt := (align_up (start + size) S2_PAGE_SIZE).isLt
  rw [rangeAddrs, List.length_map, List.length_range, pageCount]
  split
  · decide
  · omega

/-- Both functions round alike. -/
theorem rangeAddrs_el2_visits (hs : size ≠ 0) :
    LoopVisits PAGE_SIZE (start - (start &&& (PAGE_SIZE - 1)))
      ((start + size + PAGE_SIZE - 1) &&& PAGE_MASK) (rangeAddrs start size) := by
  rw [MapCall.sub_offset]
  exact rangeAddrs_visits hs

theorem s2_range_eq_fold (L : S2Layout) (pa_start : U64) (read write exec : U8) (t : S2Tables) :
    s2_map_identity_range L start pa_start size read write exec t =
      (rangeAddrs start size).foldlM (fun t cur => s2_map_page L cur
        (pa_start - (start - align_down start S2_PAGE_SIZE) + (cur - align_down start S2_PAGE_SIZE))
        read write exec t) t := by
  rw [s2_map_identity_range]
  split
  · rename_i hs
    rw [rangeAddrs_of_zero hs]
    rfl
  · rename_i hs
    exact (rangeAddrs_visits hs).runs _ _ t rangeAddrs_length_lt

theorem el2_range_eq_fold (L : El2Layout) (pa_start : U64) (attr_idx : U8) (ro exec : Bool)
    (t : El2Tables) : El2.el2_map_range L start pa_start size attr_idx ro exec t =
      (rangeAddrs start size).foldlM (fun t cur => El2.map_page L cur
        (pa_start - (start &&& (PAGE_SIZE - 1)) + (cur - (start - (start &&& (PAGE_SIZE - 1)))))
        attr_idx ro exec t) t := by
  rw [El2.el2_map_range]
  split
  · rename_i hs
    rw [rangeAddrs_of_zero hs]
    rfl
  · rename_i hs
    exact (rangeAddrs_el2_visits hs).runs _ _ t rangeAddrs_length_lt

theorem mem_rangeAddrs_iff_intersects (hfit : start.toNat + size.toNat + 0xfff < 2 ^ 64) (y : U64) :
    y ∈ rangeAddrs start size ↔ y.toNat % 0x1000 = 0 ∧
      ∃ b, start.toNat ≤ b ∧ b < start.toNat + size.toNat ∧ y.toNat ≤ b ∧ b < y.toNat + 0x1000 := by
  have hround : size ≠ 0 → pageRound (start.toNat + size.toNat) < 2 ^ 64 := by
    intro _
    simp only [pageRound]
    omega
  rw [mem_rangeAddrs hround]
  simp only [pageRound]
  constructor
  · rintro ⟨hs, haligned, hlo, hhi⟩
    have hpos : size.toNat ≠ 0 := fun hz => hs (BitVec.eq_of_toNat_eq hz)
    -- the first byte of the range that is not before the page
    exact ⟨haligned, max start.toNat y.toNat, by omega, by omega, by omega, by omega⟩
  · rintro ⟨haligned, b, hlo, hhi, hyb, hby⟩
    have hs : size ≠ 0 := by
      rintro rfl
      exact absurd (hlo.trans_lt hhi) (by simp)
    exact ⟨hs, haligned, by omega, by omega⟩

end Range

/-- For all 64-bit arguments both mapping loops end after visiting the pages between their rounded bounds
in order, and never wrap around. -/
theorem mapping_loops (start size : U64) : ∃ pages, MappingLoops start size pages :=
  ⟨rangeAddrs start size,
    { empty := rangeAddrs_of_zero
      s2_loop := rangeAddrs_visits
      el2_loop := rangeAddrs_el2_visits
      s2_range := s2_range_eq_fold
      el2_range := el2_range_eq_fold
      intersecting := mem_rangeAddrs_iff_intersects }⟩

end Schism
