import Schism.Proofs.RangeProofs

/-!
# The stage-2 map of well-formed slots

Slots that start on a page and stay inside the address spaces are mapped page by page onto the
physical slots, with the requested permissions; guard pages and everything else stay unmapped.
-/

namespace Schism

open Bits PageTables S2

/-! ## Slots as numbers -/

/-- The distance between two slots. -/
def slotStep (vm_size guard_bytes : U64) : ℕ := pageRound vm_size.toNat + pageRound guard_bytes.toNat

/-- The regions of `2^shift` bytes that the pages of `count` slots touch. -/
def slotRegions (ipa size step count shift : ℕ) : Finset ℕ :=
  (Finset.range count ×ˢ Finset.range (size / 2 ^ 12)).image fun q =>
    (ipa + q.1 * step + q.2 * 2 ^ 12) / 2 ^ shift

/-- The arguments of `s2_build_tables_identity` describe slots inside the address spaces for which the
pools have enough tables: one second-level table for each GB touched, one third-level table for each
2 MB. -/
structure SlotWindow (ipa pa vm_size : U64) (vm_count : U32) (guard_bytes : U64) : Prop where
  ipa_aligned : ipa.toNat % 2 ^ 12 = 0
  pa_aligned : pa.toNat % 2 ^ 12 = 0
  size_pos : 0 < vm_size.toNat
  count_pos : 0 < vm_count.toNat
  ipa_fits : ipa.toNat + vm_count.toNat * slotStep vm_size guard_bytes ≤ 2 ^ 39
  pa_fits : pa.toNat + vm_count.toNat * slotStep vm_size guard_bytes ≤ 2 ^ 48
  gigabytes : (slotRegions ipa.toNat (pageRound vm_size.toNat) (slotStep vm_size guard_bytes)
    vm_count.toNat 30).card ≤ S2_MAX_L2_TABLES
  blocks : (slotRegions ipa.toNat (pageRound vm_size.toNat) (slotStep vm_size guard_bytes)
    vm_count.toNat 21).card ≤ S2_MAX_L3_TABLES

/-- The address `x` lies in slot `k`. -/
def InSlot (ipa vm_size guard_bytes : U64) (k : ℕ) (x : U64) : Prop :=
  ipa.toNat + k * slotStep vm_size guard_bytes ≤ x.toNat ∧
    x.toNat < ipa.toNat + k * slotStep vm_size guard_bytes + pageRound vm_size.toNat

/-- The address of page `i` of slot `k` above `base`. -/
def slotAddr (base vm_size guard_bytes : U64) (k i : ℕ) : U64 :=
  BitVec.ofNat 64 (base.toNat + k * slotStep vm_size guard_bytes + i * 2 ^ 12)

theorem slotStep_mul_mod (vm_size guard_bytes : U64) (k : ℕ) :
    k * slotStep vm_size guard_bytes % 2 ^ 12 = 0 := by
  rw [Nat.mul_mod, slotStep, Nat.add_mod, pageRound_mod, pageRound_mod]
  rfl

/-- The physical address of `x`, when it does not wrap around. -/
theorem identity_toNat {ipa pa x : U64} (hx : ipa.toNat ≤ x.toNat)
    (hfit : pa.toNat + (x.toNat - ipa.toNat) < 2 ^ 64) :
    (pa + (x - ipa)).toNat = pa.toNat + (x.toNat - ipa.toNat) := by
  rw [BitVec.toNat_add, BitVec.toNat_sub_of_le (BitVec.le_def.mpr hx), Nat.mod_eq_of_lt hfit]

namespace SlotWindow

variable {ipa pa vm_size guard_bytes : U64} {vm_count : U32} {read write exec : U8}
  (h : SlotWindow ipa pa vm_size vm_count guard_bytes)

variable (vm_size guard_bytes) in
/-- A slot of the window ends below the bounds. -/
theorem slot_le {k : ℕ} (hk : k < vm_count.toNat) :
    k * slotStep vm_size guard_bytes + pageRound vm_size.toNat ≤
      vm_count.toNat * slotStep vm_size guard_bytes := by
  have hstep : k * slotStep vm_size guard_bytes + slotStep vm_size guard_bytes ≤
      vm_count.toNat * slotStep vm_size guard_bytes := by
    rw [← Nat.succ_mul]
    exact Nat.mul_le_mul_right _ hk
  have hle : pageRound vm_size.toNat ≤ slotStep vm_size guard_bytes := Nat.le_add_right _ _
  omega

include h

/-- The rounded lengths do not wrap around. -/
theorem rounded : (align_up vm_size S2_PAGE_SIZE).toNat = pageRound vm_size.toNat ∧
    (slotStride vm_size guard_bytes).toNat = slotStep vm_size guard_bytes := by
  have hfit := h.ipa_fits
  have hle : slotStep vm_size guard_bytes ≤ vm_count.toNat * slotStep vm_size guard_bytes :=
    Nat.le_mul_of_pos_left _ h.count_pos
  have hup : ∀ v : U64, pageRound v.toNat ≤ slotStep vm_size guard_bytes →
      (align_up v S2_PAGE_SIZE).toNat = pageRound v.toNat := by
    intro v hv
    exact align_up_of_fits (by omega)
  have hs := hup vm_size (Nat.le_add_right _ _)
  have hg := hup guard_bytes (Nat.le_add_left _ _)
  refine ⟨hs, ?_⟩
  rw [slotStride, BitVec.toNat_add, hs, hg]
  simp only [slotStep] at hle hfit ⊢
  omega

theorem slot_toNat {k : ℕ} (hk : k < vm_count.toNat) {base : U64}
    (hbase : base.toNat + vm_count.toNat * slotStep vm_size guard_bytes ≤ 2 ^ 48) :
    (base + BitVec.ofNat 64 k * slotStride vm_size guard_bytes).toNat =
      base.toNat + k * slotStep vm_size guard_bytes := by
  have hoff := slot_le vm_size guard_bytes hk
  have hcount := vm_count.isLt
  rw [BitVec.toNat_add, BitVec.toNat_mul, BitVec.toNat_ofNat, h.rounded.2,
    Nat.mod_eq_of_lt (by omega : k < 2 ^ 64)]
  omega

omit h in
theorem slotAddr_toNat {k i : ℕ} (hk : k < vm_count.toNat)
    (hi : i < pageRound vm_size.toNat / 2 ^ 12) {base : U64}
    (hbase : base.toNat + vm_count.toNat * slotStep vm_size guard_bytes ≤ 2 ^ 48) :
    (slotAddr base vm_size guard_bytes k i).toNat =
      base.toNat + k * slotStep vm_size guard_bytes + i * 2 ^ 12 := by
  have hoff := slot_le vm_size guard_bytes hk
  rw [slotAddr, BitVec.toNat_ofNat, Nat.mod_eq_of_lt]
  omega

theorem round_pos : 0 < pageRound vm_size.toNat := by
  have := h.size_pos
  simp only [pageRound]
  omega

/-- The start of a slot is a page, so the builder rounds neither end of it. -/
theorem slot_aligned {k : ℕ} (hk : k < vm_count.toNat) :
    align_down (ipa + BitVec.ofNat 64 k * slotStride vm_size guard_bytes) S2_PAGE_SIZE =
        ipa + BitVec.ofNat 64 k * slotStride vm_size guard_bytes ∧
      pageCount (ipa + BitVec.ofNat 64 k * slotStride vm_size guard_bytes)
        (align_up vm_size S2_PAGE_SIZE) = pageRound vm_size.toNat / 2 ^ 12 := by
  have hoff := slot_le vm_size guard_bytes hk
  have hfit := h.ipa_fits
  have hipa := h.slot_toNat hk (hfit.trans (by decide))
  have ha := h.ipa_aligned
  have hmod := slotStep_mul_mod vm_size guard_bytes k
  have hmod' := pageRound_mod vm_size.toNat
  have hpos := h.round_pos
  have hsize := h.rounded.1
  have hdown : align_down (ipa + BitVec.ofNat 64 k * slotStride vm_size guard_bytes) S2_PAGE_SIZE =
      ipa + BitVec.ofNat 64 k * slotStride vm_size guard_bytes := by
    apply BitVec.eq_of_toNat_eq
    rw [align_down_toNat, hipa]
    omega
  refine ⟨hdown, ?_⟩
  have hne : align_up vm_size S2_PAGE_SIZE ≠ 0 := by
    intro hz
    rw [hz] at hsize
    have hzero : 0 = pageRound vm_size.toNat := hsize
    omega
  rw [pageCount, if_neg hne, hdown, align_up_toNat, BitVec.toNat_add, hipa, hsize]
  omega

/-- Under the window the builder's pages are the pages of the slots. -/
theorem slotPages_eq :
    slotPages ipa pa vm_size vm_count guard_bytes read write exec =
      (List.range vm_count.toNat).flatMap fun k =>
        (List.range (pageRound vm_size.toNat / 2 ^ 12)).map fun i =>
          (s2Path (slotAddr ipa vm_size guard_bytes k i),
            page_desc (slotAddr pa vm_size guard_bytes k i) read write exec) := by
  refine List.flatMap_congr ?_
  intro k hk
  rw [List.mem_range] at hk
  obtain ⟨hdown, hcount⟩ := h.slot_aligned hk
  have hadd : ∀ (base : U64) (i : ℕ),
      base.toNat + vm_count.toNat * slotStep vm_size guard_bytes ≤ 2 ^ 48 →
      base + BitVec.ofNat 64 k * slotStride vm_size guard_bytes + BitVec.ofNat 64 (i * 2 ^ 12) =
        slotAddr base vm_size guard_bytes k i := by
    intro base i hbase
    apply BitVec.eq_of_toNat_eq
    rw [BitVec.toNat_add, h.slot_toNat hk hbase, slotAddr, BitVec.toNat_ofNat, BitVec.toNat_ofNat]
    omega
  rw [rangePages, hdown, hcount]
  simp only [sub_self, sub_zero, hadd ipa _ (h.ipa_fits.trans (by decide)), hadd pa _ h.pa_fits]

theorem mem_slotPages {p : Path (BitVec 9) × U64} :
    p ∈ slotPages ipa pa vm_size vm_count guard_bytes read write exec ↔
      ∃ k < vm_count.toNat, ∃ i < pageRound vm_size.toNat / 2 ^ 12,
        p = (s2Path (slotAddr ipa vm_size guard_bytes k i),
          page_desc (slotAddr pa vm_size guard_bytes k i) read write exec) := by
  rw [h.slotPages_eq, List.mem_flatMap]
  simp only [List.mem_range, List.mem_map, eq_comm]

/-- The page of `x` is page `i` of slot `k`. -/
theorem path_eq_iff {k i : ℕ} (hk : k < vm_count.toNat) (hi : i < pageRound vm_size.toNat / 2 ^ 12)
    {x : U64} (hx : x.toNat < 2 ^ 39) :
    s2Path (slotAddr ipa vm_size guard_bytes k i) = s2Path x ↔
      ipa.toNat + k * slotStep vm_size guard_bytes + i * 2 ^ 12 = x.toNat / 2 ^ 12 * 2 ^ 12 := by
  have hfit := h.ipa_fits
  have hoff := slot_le vm_size guard_bytes hk
  have ha := h.ipa_aligned
  have hmod := slotStep_mul_mod vm_size guard_bytes k
  have haddr := slotAddr_toNat hk hi (hfit.trans (by decide))
  rw [s2Path_eq_iff (by omega) hx, haddr]
  omega

variable (read write exec) in
/-- The pages that are written are the pages of the slots. -/
theorem exists_page_iff {x : U64} (hx : x.toNat < 2 ^ 39) :
    (∃ p ∈ slotPages ipa pa vm_size vm_count guard_bytes read write exec, p.1 = s2Path x) ↔
      ∃ k < vm_count.toNat, InSlot ipa vm_size guard_bytes k x := by
  have ha := h.ipa_aligned
  have hmod' := pageRound_mod vm_size.toNat
  constructor
  · rintro ⟨p, hp, hpath⟩
    obtain ⟨k, hk, i, hi, rfl⟩ := h.mem_slotPages.mp hp
    have hpage := (h.path_eq_iff hk hi hx).mp hpath
    exact ⟨k, hk, by simp only [InSlot]; omega⟩
  · rintro ⟨k, hk, hlo, hhi⟩
    have hmod := slotStep_mul_mod vm_size guard_bytes k
    have hi : (x.toNat - (ipa.toNat + k * slotStep vm_size guard_bytes)) / 2 ^ 12 <
        pageRound vm_size.toNat / 2 ^ 12 := by omega
    exact ⟨_, h.mem_slotPages.mpr ⟨k, hk, _, hi, rfl⟩, (h.path_eq_iff hk hi hx).mpr (by omega)⟩

/-- All slots map an address to the same physical page. -/
theorem slotPages_agree {x : U64} (hx : x.toNat < 2 ^ 39)
    {p : Path (BitVec 9) × U64} (hp : p ∈ slotPages ipa pa vm_size vm_count guard_bytes read write exec)
    (hpath : p.1 = s2Path x) : p.2 = page_desc (pa + (x - ipa)) read write exec := by
  obtain ⟨k, hk, i, hi, rfl⟩ := h.mem_slotPages.mp hp
  have hpage := (h.path_eq_iff hk hi hx).mp hpath
  have hpa := slotAddr_toNat hk hi h.pa_fits
  have hoff := slot_le vm_size guard_bytes hk
  have hfit := h.pa_fits
  have ha := h.ipa_aligned
  have hb := h.pa_aligned
  have hmod := slotStep_mul_mod vm_size guard_bytes k
  have hsame : slotAddr pa vm_size guard_bytes k i &&& oaMask = (pa + (x - ipa)) &&& oaMask := by
    apply BitVec.eq_of_toNat_eq
    rw [toNat_and_oaMask, toNat_and_oaMask, hpa, identity_toNat (by omega) (by omega)]
    congr 2
    omega
  simp only [page_desc_eq, hsame]

/-- The contents of the tables after the build. -/
theorem built_entry {L : S2Layout} {t₀ t : S2Tables}
    (ht : mapPages L.pools (slotPages ipa pa vm_size vm_count guard_bytes read write exec)
      (reset L.pools t₀) = some t) {x : U64} (hx : x.toNat < 2 ^ 39) :
    (∃ k < vm_count.toNat, InSlot ipa vm_size guard_bytes k x) ∧
        t.entry L.pools (s2Path x) = page_desc (pa + (x - ipa)) read write exec ∨
      (¬ ∃ k < vm_count.toNat, InSlot ipa vm_size guard_bytes k x) ∧
        t.entry L.pools (s2Path x) = 0 := by
  rcases mapPages_entry_cases ht (s2Path x) with ⟨p, hp, hpath, hentry⟩ | ⟨hno, hentry⟩
  · exact Or.inl ⟨(h.exists_page_iff read write exec hx).mp ⟨p, hp, hpath⟩,
      hentry.trans (h.slotPages_agree hx hp hpath)⟩
  · refine Or.inr ⟨?_, hentry⟩
    intro hin
    obtain ⟨p, hp, hpath⟩ :=
      (h.exists_page_iff read write exec hx).mpr hin
    exact hno p hp hpath

variable (pa read write exec) in
/-- The regions that the slots touch are those of the pages that are written. -/
theorem mem_slotRegions_iff (d r : ℕ) :
    r ∈ slotRegions ipa.toNat (pageRound vm_size.toNat) (slotStep vm_size guard_bytes) vm_count.toNat
        (12 + d) ↔
      ∃ x : U64, x.toNat < 2 ^ 39 ∧
        s2Path x ∈ (slotPages ipa pa vm_size vm_count guard_bytes read write exec).map Prod.fst ∧
        x.toNat / 2 ^ (12 + d) = r := by
  simp only [slotRegions, Finset.mem_image, Finset.mem_product, Finset.mem_range, List.mem_map]
  constructor
  · rintro ⟨⟨k, i⟩, hki, rfl⟩
    obtain ⟨hk, hi⟩ : k < vm_count.toNat ∧ i < pageRound vm_size.toNat / 2 ^ 12 := hki
    have haddr := slotAddr_toNat hk hi (h.ipa_fits.trans (by decide))
    have hoff := slot_le vm_size guard_bytes hk
    have hfit := h.ipa_fits
    exact ⟨slotAddr ipa vm_size guard_bytes k i, by omega,
      ⟨_, h.mem_slotPages.mpr ⟨k, hk, i, hi, rfl⟩, rfl⟩, by rw [haddr]⟩
  · rintro ⟨x, hx, ⟨p, hp, hpath⟩, rfl⟩
    obtain ⟨k, hk, i, hi, rfl⟩ := h.mem_slotPages.mp hp
    have hpage := (h.path_eq_iff hk hi hx).mp hpath
    refine ⟨(k, i), ⟨hk, hi⟩, ?_⟩
    rw [hpage, pow_add, ← Nat.div_div_eq_div_mul, Nat.mul_div_cancel _ (Nat.two_pow_pos 12),
      Nat.div_div_eq_div_mul]

variable (read write exec) in
/-- The pools have the tables that the slots need. -/
theorem build_returns (L : S2Layout) (t₀ : S2Tables) :
    ∃ t, mapPages L.pools (slotPages ipa pa vm_size vm_count guard_bytes read write exec)
      (reset L.pools t₀) = some t := by
  rw [← Option.isSome_iff_exists, mapPages_isSome_iff,
    roots_card (h.mem_slotRegions_iff pa read write exec 18),
    branches_card (h.mem_slotRegions_iff pa read write exec 9)]
  exact ⟨h.gigabytes, h.blocks⟩

end SlotWindow

/-! ## The translation -/

/-- A physical page with the offset of `x`. -/
theorem or_offset {y x : U64} (hy : y.toNat < 2 ^ 48) (hoff : y.toNat % 2 ^ 12 = x.toNat % 2 ^ 12) :
    (y &&& oaMask) ||| (x &&& 0xfff) = y := by
  have hx : (x &&& 0xfff).toNat = x.toNat % 2 ^ 12 := toNat_and_ones x 12 (by decide)
  apply BitVec.eq_of_toNat_eq
  rw [BitVec.toNat_or, toNat_and_oaMask, hx, ← Nat.shiftLeft_eq,
    ← Nat.shiftLeft_add_eq_or_of_lt (Nat.mod_lt _ (by decide)), Nat.shiftLeft_eq]
  omega

theorem s2_l1_and_oaMask (L : S2Layout) : L.s2_l1 &&& oaMask = L.s2_l1 :=
  and_oaMask_of_aligned L.l1_aligned (by have := L.l1_below; omega)

/-- After the build the walk of an address succeeds exactly in the slots, where it finds the physical
slot with the requested permissions. -/
theorem built_walk {L : S2Layout} {ipa pa vm_size guard_bytes : U64} {vm_count : U32}
    {read write exec : U8} (h : SlotWindow ipa pa vm_size vm_count guard_bytes)
    {t₀ t : S2Tables}
    (ht : mapPages L.pools (slotPages ipa pa vm_size vm_count guard_bytes read write exec)
      (reset L.pools t₀) = some t) (other : U64 → BitVec 9 → U64) {vttbr : U64}
    (hv : vttbr &&& oaMask = L.s2_l1) {x : U64} (hx : x.toNat < 2 ^ 39) (tr : S2Translation) :
    s2_walk L other t vttbr x = some tr ↔
      (∃ k < vm_count.toNat, InSlot ipa vm_size guard_bytes k x) ∧
        tr = { pa := pa + (x - ipa)
               read := read != 0
               write := write != 0
               exec := exec != 0 } := by
  have hwf := (mapPages_spec (reset_wf t₀) ht).wf
  rw [s2_walk_eq hwf hv hx]
  rcases h.built_entry ht hx with ⟨hin, hentry⟩ | ⟨hout, hentry⟩
  · have hpa : ((pa + (x - ipa)) &&& oaMask) ||| (x &&& 0xfff) = pa + (x - ipa) := by
      obtain ⟨k, hk, hlo, hhi⟩ := hin
      have hoff := SlotWindow.slot_le vm_size guard_bytes hk
      have hfit := h.pa_fits
      have ha := h.ipa_aligned
      have hb := h.pa_aligned
      have hid : (pa + (x - ipa)).toNat = pa.toNat + (x.toNat - ipa.toNat) :=
        identity_toNat (by omega) (by omega)
      exact or_offset (by omega) (by omega)
    rw [hentry, s2_decode_page_desc]
    simp only [Desc.page, Option.map_some, page_desc_translate, hpa, hin, true_and, Option.some.injEq,
      eq_comm]
  · rw [hentry, s2_decode_zero]
    simp [Desc.page, hout]

/-- The stage-2 build is exact: it returns, and the walk of every address of the 39-bit space succeeds
exactly in the slots, with the requested physical address and permissions. -/
theorem s2_build_exact (L : S2Layout) (other : U64 → BitVec 9 → U64) (t₀ : S2Tables)
    {ipa pa vm_size guard_bytes : U64} {vm_count : U32} (read write exec : U8)
    (h : SlotWindow ipa pa vm_size vm_count guard_bytes) :
    ∃ t, s2_build_tables_identity L ipa pa vm_size vm_count guard_bytes read write exec t₀ = some t ∧
      ∀ x : U64, x.toNat < 2 ^ 39 → ∀ tr, s2_walk L other t L.s2_l1 x = some tr ↔
        (∃ k < vm_count.toNat, InSlot ipa vm_size guard_bytes k x) ∧
          tr = { pa := pa + (x - ipa)
                 read := read != 0
                 write := write != 0
                 exec := exec != 0 } := by
  have hcount : vm_count ≠ 0 := fun hz => absurd h.count_pos (by rw [hz]; decide)
  have hsize : vm_size ≠ 0 := fun hz => absurd h.size_pos (by rw [hz]; decide)
  obtain ⟨t, ht⟩ := h.build_returns read write exec L t₀
  exact ⟨t, (s2_build_eq L hcount hsize t₀).trans ht,
    fun x hx tr => built_walk h ht other (s2_l1_and_oaMask L) hx tr⟩

/-- The three arrays one after the other. -/
def packedLayout : S2Layout where
  s2_l1 := 0x40040000
  s2_l2_pool := 0x40041000
  s2_l3_pool := 0x40061000
  l1_aligned := by decide
  l2_aligned := by decide
  l3_aligned := by decide
  l1_below := by decide
  l2_below := by decide
  l3_below := by decide
  l1_l2 := by decide
  l1_l3 := by decide
  l2_l3 := by decide

/-- Three slots of a size that is rounded up, the first of which crosses a 2 MB boundary. -/
theorem slotWindow_three : SlotWindow 0x401fe000 0x801fe000 0x4800 3 0x2000 where
  ipa_aligned := by decide
  pa_aligned := by decide
  size_pos := by decide
  count_pos := by decide
  ipa_fits := by decide
  pa_fits := by decide
  gigabytes := by decide
  blocks := by decide

theorem s2_build_exact_three : SlotWindow 0x401fe000 0x801fe000 0x4800 3 0x2000 ∧
    ∃ t, s2_build_tables_identity packedLayout 0x401fe000 0x801fe000 0x4800 3 0x2000 1 1 0
        S2Tables.cleared = some t ∧
      ∀ x : U64, x.toNat < 2 ^ 39 → ∀ tr, s2_walk packedLayout (fun _ _ => 0) t
          packedLayout.s2_l1 x = some tr ↔
        (∃ k < (3 : U32).toNat, InSlot 0x401fe000 0x4800 0x2000 k x) ∧
          tr = { pa := 0x801fe000 + (x - 0x401fe000)
                 read := (1 : U8) != 0
                 write := (1 : U8) != 0
                 exec := (0 : U8) != 0 } :=
  ⟨slotWindow_three, s2_build_exact packedLayout _ _ 1 1 0 slotWindow_three⟩

end Schism
