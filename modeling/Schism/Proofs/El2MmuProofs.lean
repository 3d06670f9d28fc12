import Schism.El2Mmu
import Schism.Proofs.Stage2Proofs

/-!
# What EL2's own builder builds

A sequence of `el2_map_range` calls is one list of pages (`MapCall.runAll_eq`). For calls inside the
address spaces the walk of an address finds what the last call that covers its page asked for
(`walk_calls`), and the pools suffice exactly when the calls touch few enough regions
(`calls_isSome_iff`).
-/

namespace Schism

open Bits PageTables S2

/-! ## The hardware's view of the tables -/

namespace El2Layout

variable (L : El2Layout)

theorem addr2_toNat {k : ℕ} (hk : k < EL2_MAX_L2_TABLES) :
    (L.pools.addr2 k).toNat = L.l2_pool.toNat + 0x2000 * k := element_toNat hk L.l2_below

theorem addr3_toNat {m : ℕ} (hm : m < EL2_MAX_L3_TABLES) :
    (L.pools.addr3 m).toNat = L.l3_pool.toNat + 0x1000 * m := element_toNat hm L.l3_below

theorem pools_distinct : L.pools.Distinct :=
  arrays_distinct rfl (fun _ => L.addr2_toNat) (fun _ => L.addr3_toNat) L.l1_l2 L.l1_l3 L.l2_l3

end El2Layout

theorem PA_48_MASK_and_PAGE_MASK : PA_48_MASK &&& PAGE_MASK = oaMask := by decide

namespace El2Layout

variable (L : El2Layout)

theorem link_eq {a : U64} (ha : a.toNat % 0x1000 = 0) : L.pools.link a = a ||| 0x3 := by
  have hmask : a &&& PAGE_MASK = a := by
    apply BitVec.eq_of_toNat_eq
    have hdown : (a &&& PAGE_MASK).toNat = a.toNat / 2 ^ 12 * 2 ^ 12 := align_down_toNat a
    omega
  exact congrArg (· ||| EL2_DESC_TABLE) hmask

theorem addr2_aligned {k : ℕ} (hk : k < EL2_MAX_L2_TABLES) :
    (L.pools.addr2 k).toNat % 0x1000 = 0 ∧ (L.pools.addr2 k).toNat < 2 ^ 48 :=
  element_aligned hk L.l2_below L.l2_aligned rfl (by decide)

theorem addr3_aligned {m : ℕ} (hm : m < EL2_MAX_L3_TABLES) :
    (L.pools.addr3 m).toNat % 0x1000 = 0 ∧ (L.pools.addr3 m).toNat < 2 ^ 48 :=
  element_aligned hm L.l3_below L.l3_aligned rfl (by decide)

end El2Layout

section Walk

variable {L : El2Layout} {t : El2Tables} {r : El2Regs} {other : U64 → BitVec 9 → U64} {x : U64}

/-- The root that `el2_mmu_enable` programs is the level-1 table. -/
theorem el2_mmu_enable_root : (el2_mmu_enable L r).ttbr0_el2 &&& oaMask = L.el2_l1 := by
  have hl1 : L.el2_l1 &&& oaMask = L.el2_l1 :=
    and_oaMask_of_aligned L.l1_aligned (by have := L.l1_below; omega)
  simp only [el2_mmu_enable, PA_48_MASK_and_PAGE_MASK, hl1]

/-- `el2_mmu_enable` switches the MMU on, for addresses of 39 bits. -/
theorem el2_walk_enabled : el2_walk L other t (el2_mmu_enable L r) x =
    if 2 ^ 39 ≤ x.toNat then none
    else (walk s2_decode (t.read L.pools other) L.el2_l1 (s2Path x)).map
      (.ofLeaf MAIR_EL2_VALUE x) := by
  have hon : (el2_mmu_enable L r).sctlr_el2.getLsbD 0 = true := by
    simp [el2_mmu_enable]
  have hsize : 64 - ((el2_mmu_enable L r).tcr_el2 &&& 0x3f).toNat = 39 := by
    simp only [el2_mmu_enable]
    decide
  rw [el2_walk, hon, hsize, if_neg Bool.false_ne_true.symm, el2_mmu_enable_root]
  rfl

theorem el2_walk_of_high (hx : 2 ^ 39 ≤ x.toNat) :
    el2_walk L other t (el2_mmu_enable L r) x = none := by
  rw [el2_walk_enabled, if_pos hx]

/-- The walk under the registers of `el2_mmu_enable` ends at the builder's contents. -/
theorem el2_lookup_eq (hw : Wf L.pools t) :
    el2_lookup L other t (el2_mmu_enable L r) x =
      ((s2_decode 3 (t.entry L.pools (s2Path x))).page).map (.ofLeaf x) := by
  have hwalk : walk s2_decode (t.read L.pools other) L.el2_l1 (s2Path x) = _ :=
    walk_s2_decode_eq hw L.pools_distinct rfl (fun _ ha _ => L.link_eq ha) (fun _ => L.addr2_aligned)
      (fun _ => L.addr3_aligned) other (s2Path x)
  rw [el2_lookup, el2_mmu_enable_root]
  exact congrArg (Option.map _) hwalk

/-- What the hardware makes of the fields that the walk finds. -/
theorem el2_walk_of_lookup (hx : x.toNat < 2 ^ 39) :
    el2_walk L other t (el2_mmu_enable L r) x =
      (el2_lookup L other t (el2_mmu_enable L r) x).map fun m =>
        { pa := m.pa
          attr := (MAIR_EL2_VALUE >>> (8 * m.attr_idx)).setWidth 8
          write := !m.ro
          exec := m.exec } := by
  rw [el2_walk_enabled, if_neg (by omega), el2_lookup, el2_mmu_enable_root, Option.map_map]
  rfl

end Walk

/-! ## Page descriptors -/

namespace El2

/-- The bits of a page descriptor outside its address field. -/
def pageFlags (attr : Fin 8) (ro exec : Bool) : U64 :=
  EL2_PTE_PAGE ||| (BitVec.ofNat 64 attr <<< 2) ||| EL2_PTE_SH_INNER ||| EL2_PTE_AF |||
    (if ro then EL2_PTE_RDONLY else 0) ||| (if exec then 0 else EL2_PTE_PXN ||| EL2_PTE_UXN)

theorem pageFlags_bits (attr : Fin 8) (ro exec : Bool) :
    pageFlags attr ro exec &&& oaMask = 0 ∧ (pageFlags attr ro exec).getLsbD 0 = true ∧
      (pageFlags attr ro exec).getLsbD 1 = true ∧ (pageFlags attr ro exec).getLsbD 10 = true ∧
      ((pageFlags attr ro exec >>> 2) &&& 0x7).toNat = attr ∧
      (pageFlags attr ro exec).getLsbD 7 = ro ∧ (pageFlags attr ro exec).getLsbD 54 = !exec := by
  revert attr ro exec
  decide

/-- The three bits of `attr_idx` that reach the descriptor. -/
def attrIndx (attr_idx : U8) : Fin 8 := ⟨attr_idx.toNat % 8, Nat.mod_lt _ (by decide)⟩

variable (pa : U64) (attr_idx : U8) (ro exec : Bool)

theorem EL2_PTE_ATTR_eq : EL2_PTE_ATTR attr_idx = BitVec.ofNat 64 (attrIndx attr_idx) <<< 2 := by
  have hlow : attr_idx.setWidth 64 &&& 0x7 = BitVec.ofNat 64 (attr_idx.toNat % 8) := by
    apply BitVec.eq_of_toNat_eq
    have hlt := attr_idx.isLt
    have hmask : (attr_idx.setWidth 64 &&& 0x7).toNat = (attr_idx.setWidth 64).toNat % 2 ^ 3 :=
      toNat_and_ones _ 3 (by decide)
    rw [hmask, BitVec.toNat_setWidth, BitVec.toNat_ofNat]
    omega
  rw [EL2_PTE_ATTR, hlow]
  rfl

theorem page_desc_eq : page_desc pa attr_idx ro exec =
    (pa &&& oaMask) ||| pageFlags (attrIndx attr_idx) ro exec := by
  have hzero : ∀ v : U64, v ||| 0 = v := fun _ => BitVec.or_zero
  simp only [page_desc, pageFlags, PA_48_MASK_and_PAGE_MASK, EL2_PTE_ATTR_eq]
  cases ro <;> cases exec <;>
    simp only [Bool.not_false, Bool.not_true, if_true, if_false, Bool.false_eq_true, hzero,
      BitVec.or_assoc]

theorem page_desc_and_oaMask : page_desc pa attr_idx ro exec &&& oaMask = pa &&& oaMask := by
  rw [page_desc_eq, desc_and_oaMask pa (pageFlags_bits _ _ _).1]

theorem page_desc_attr :
    ((page_desc pa attr_idx ro exec >>> 2) &&& 0x7).toNat = attr_idx.toNat % 8 := by
  have hlow : ((pa &&& oaMask) >>> 2 &&& 0x7).toNat = 0 := by
    have hfield := toNat_field (pa &&& oaMask) 2 3 (by decide)
    rw [toNat_and_oaMask] at hfield
    exact hfield.trans (by omega)
  obtain ⟨-, -, -, -, hattr, -, -⟩ := pageFlags_bits (attrIndx attr_idx) ro exec
  rw [page_desc_eq, BitVec.ushiftRight_or_distrib, BitVec.and_or_distrib_right, BitVec.toNat_or, hlow,
    hattr, Nat.zero_or]
  rfl

/-- A page descriptor is valid and accessible, whatever it maps. -/
theorem decode_page_desc :
    s2_decode 3 (page_desc pa attr_idx ro exec) = .leaf ⟨page_desc pa attr_idx ro exec, 12⟩ := by
  obtain ⟨-, h0, h1, haf, -, -, -⟩ := pageFlags_bits (attrIndx attr_idx) ro exec
  rw [← desc_getLsbD pa rfl, ← page_desc_eq] at h0 h1 haf
  exact s2_decode_page h0 h1 haf

/-- What a page descriptor holds. -/
theorem page_desc_ofLeaf (x : U64) :
    El2Mapping.ofLeaf x ⟨page_desc pa attr_idx ro exec, 12⟩ =
      { pa := (pa &&& oaMask) ||| (x &&& 0xfff)
        attr_idx := attr_idx.toNat % 8
        ro := ro
        exec := exec } := by
  obtain ⟨-, -, -, -, -, hw, hx⟩ := pageFlags_bits (attrIndx attr_idx) ro exec
  rw [← desc_getLsbD pa rfl, ← page_desc_eq] at hw hx
  simp only [El2Mapping.ofLeaf, page_desc_and_oaMask, page_desc_attr, hw, hx, Bool.not_not,
    oaMask_shift]
  rfl

theorem map_page_eq (L : El2Layout) (va : U64) (t : El2Tables) :
    map_page L va pa attr_idx ro exec t =
      mapPage L.pools (s2Path va) (page_desc pa attr_idx ro exec) t := rfl

end El2

/-! ## Calls as lists of pages -/

/-- The arguments of a call of `el2_map_range`. -/
structure MapCall where
  va_start : U64
  pa_start : U64
  size : U64
  attr_idx : U8
  ro : Bool
  exec : Bool

namespace MapCall

variable (k : MapCall)

def run (L : El2Layout) (t : El2Tables) : Option El2Tables :=
  El2.el2_map_range L k.va_start k.pa_start k.size k.attr_idx k.ro k.exec t

/-- The pages that the call writes, in order. -/
def pages : List (Path (BitVec 9) × U64) :=
  let va := align_down k.va_start S2_PAGE_SIZE
  let pa := k.pa_start - (k.va_start - va)
  (List.range (S2.pageCount k.va_start k.size)).map fun i =>
    (s2Path (va + BitVec.ofNat 64 (i * 2 ^ 12)),
      El2.page_desc (pa + BitVec.ofNat 64 (i * 2 ^ 12)) k.attr_idx k.ro k.exec)

/-- The page-rounded range of the call contains `x`. -/
def Covers (x : ℕ) : Prop :=
  k.size ≠ 0 ∧ k.va_start.toNat / 2 ^ 12 * 2 ^ 12 ≤ x ∧
    x < pageRound (k.va_start.toNat + k.size.toNat)

instance (x : ℕ) : Decidable (k.Covers x) := inferInstanceAs (Decidable (_ ∧ _ ∧ _))

/-- What the call asks for at `x`. -/
def translation (x : U64) : El2Translation where
  pa := k.pa_start + (x - k.va_start)
  attr := (MAIR_EL2_VALUE >>> (8 * (k.attr_idx.toNat % 8))).setWidth 8
  write := !k.ro
  exec := k.exec

/-- The fields that the call asks for at `x`. -/
def request (x : U64) : El2Mapping where
  pa := k.pa_start + (x - k.va_start)
  attr_idx := k.attr_idx.toNat
  ro := k.ro
  exec := k.exec

/-- The range lies inside the address spaces and keeps the page offset. -/
structure InBounds : Prop where
  va_fits : k.va_start.toNat + k.size.toNat ≤ 2 ^ 39
  pa_fits : k.pa_start.toNat + k.size.toNat ≤ 2 ^ 48
  congruent : k.va_start.toNat % 2 ^ 12 = k.pa_start.toNat % 2 ^ 12

/-- Cutting off the offset is rounding down. -/
theorem sub_offset (v : U64) : v - (v &&& (PAGE_SIZE - 1)) = align_down v S2_PAGE_SIZE := by
  have hoff : (v &&& (PAGE_SIZE - 1)).toNat = v.toNat % 2 ^ 12 := toNat_and_ones v 12 (by decide)
  apply BitVec.eq_of_toNat_eq
  rw [align_down_toNat, BitVec.toNat_sub_of_le (by rw [BitVec.le_def, hoff]; omega), hoff]
  omega

/-- For all arguments `el2_map_range` writes the pages of the call. -/
theorem run_eq (L : El2Layout) (t : El2Tables) : k.run L t = mapPages L.pools k.pages t := by
  unfold run El2.el2_map_range pages S2.pageCount
  by_cases hsize : k.size = 0
  · simp only [hsize, if_true]
    rfl
  have hpa : k.pa_start - (k.va_start &&& (PAGE_SIZE - 1)) =
      k.pa_start - (k.va_start - align_down k.va_start S2_PAGE_SIZE) := by
    rw [← sub_offset, sub_sub_cancel]
  simp only [if_neg hsize, El2.map_page_eq, sub_offset, hpa]
  refine (S2.pageLoop_eq L.pools (fun cur => El2.page_desc
    (k.pa_start - (k.va_start - align_down k.va_start S2_PAGE_SIZE) +
      (cur - align_down k.va_start S2_PAGE_SIZE)) k.attr_idx k.ro k.exec) (align_down_mod _)
    (align_up_mod (k.va_start + k.size)) t).trans ?_
  simp only [add_sub_cancel_left]

/-- A sequence of calls. -/
def runAll (L : El2Layout) (calls : List MapCall) (t : El2Tables) : Option El2Tables :=
  calls.foldlM (fun t k => k.run L t) t

theorem runAll_eq (L : El2Layout) (calls : List MapCall) (t : El2Tables) :
    runAll L calls t = mapPages L.pools (calls.flatMap pages) t := by
  rw [runAll, mapPages_flatMap]
  simp only [run_eq]

theorem pages_paths : k.pages.map Prod.fst = rangePaths k.va_start k.size := by
  rw [pages, List.map_map]
  rfl

/-! ## Calls inside the address spaces -/

/-- The virtual range, if there is one, ends in the 39-bit space. -/
def VaFits : Prop := k.size ≠ 0 → k.va_start.toNat + k.size.toNat ≤ 2 ^ 39

theorem vaFits_of_inBounds {k : MapCall} (h : k.size ≠ 0 → k.InBounds) : k.VaFits :=
  fun hs => (h hs).va_fits

section VaFits

variable {k} (h : k.VaFits) {x : U64}
include h

theorem rounded_fits (hs : k.size ≠ 0) :
    pageRound (k.va_start.toNat + k.size.toNat) ≤ 2 ^ 39 := by
  have hfit := h hs
  simp only [pageRound]
  omega

/-- The pages that are written are those of the rounded range. -/
theorem mem_pages_iff (hx : x.toNat < 2 ^ 39) : s2Path x ∈ k.pages.map Prod.fst ↔ k.Covers x.toNat := by
  rw [pages_paths]
  exact mem_rangePaths_low (rounded_fits h) hx

end VaFits

section InBounds

variable {k} (h : k.size ≠ 0 → k.InBounds) {x : U64}
include h

/-- The physical address that the call gives `x` keeps its distance to the range and its offset. -/
theorem pa_toNat (hc : k.Covers x.toNat) :
    (k.pa_start + (x - k.va_start)).toNat + k.va_start.toNat = k.pa_start.toNat + x.toNat ∧
      (k.pa_start + (x - k.va_start)).toNat < 2 ^ 48 := by
  obtain ⟨hs, hlo, hhi⟩ := hc
  have hva := (h hs).va_fits
  have hpa := (h hs).pa_fits
  have hmod := (h hs).congruent
  simp only [pageRound] at hhi
  rw [BitVec.toNat_add, BitVec.toNat_sub]
  omega

/-- All pages that the call writes for `x` have the descriptor that it asks for. -/
theorem pages_agree (hx : x.toNat < 2 ^ 39) {p : Path (BitVec 9) × U64} (hp : p ∈ k.pages)
    (hpath : p.1 = s2Path x) :
    p.2 = El2.page_desc (k.pa_start + (x - k.va_start)) k.attr_idx k.ro k.exec := by
  have hva' := vaFits_of_inBounds h
  have hc : k.Covers x.toNat := (mem_pages_iff hva' hx).mp (hpath ▸ List.mem_map_of_mem hp)
  obtain ⟨hpa, -⟩ := pa_toNat h hc
  obtain ⟨i, hi, rfl⟩ := List.mem_map.mp hp
  rw [List.mem_range] at hi
  have hround : k.size ≠ 0 → pageRound (k.va_start.toNat + k.size.toNat) < 2 ^ 64 := fun hs =>
    (rounded_fits hva' hs).trans_lt (by decide)
  have haddr := rangeAddr_toNat hround hi
  have hmod := (h hc.1).congruent
  have hfit := (h hc.1).pa_fits
  have hva := (h hc.1).va_fits
  rw [pageCount_of_fits hround hc.1] at hi
  simp only [pageRound] at hi
  rw [s2Path_eq_iff (by omega) hx, haddr] at hpath
  have hoff : (k.va_start - align_down k.va_start S2_PAGE_SIZE).toNat = k.va_start.toNat % 2 ^ 12 := by
    rw [BitVec.toNat_sub_of_le (by rw [BitVec.le_def, align_down_toNat]; omega), align_down_toNat]
    omega
  have hsame : (k.pa_start - (k.va_start - align_down k.va_start S2_PAGE_SIZE) +
      BitVec.ofNat 64 (i * 2 ^ 12)) &&& oaMask = (k.pa_start + (x - k.va_start)) &&& oaMask := by
    apply BitVec.eq_of_toNat_eq
    rw [toNat_and_oaMask, toNat_and_oaMask, BitVec.toNat_add, BitVec.toNat_ofNat,
      BitVec.toNat_sub_of_le (by rw [BitVec.le_def, hoff]; omega), hoff]
    omega
  simp only [El2.page_desc_eq, hsame]

/-- One call overwrites the pages of its rounded range and nothing else. -/
theorem writeAll_pages (hx : x.toNat < 2 ^ 39) (e : Path (BitVec 9) → U64) :
    writeAll e k.pages (s2Path x) = if k.Covers x.toNat
      then El2.page_desc (k.pa_start + (x - k.va_start)) k.attr_idx k.ro k.exec
      else e (s2Path x) := by
  have hmem := mem_pages_iff (vaFits_of_inBounds h) hx
  by_cases hc : k.Covers x.toNat
  · obtain ⟨p, hp, hpath, hval⟩ := writeAll_of_mem (hmem.mpr hc) e
    rw [if_pos hc, hval, pages_agree h hx hp hpath]
  · rw [if_neg hc, writeAll_of_not_mem (mt hmem.mp hc)]

end InBounds

end MapCall

/-! ## The last call wins -/

section Calls

variable {calls : List MapCall} (h : ∀ k ∈ calls, k.size ≠ 0 → k.InBounds)

/-- The last call whose rounded range contains `x`. -/
def lastCall (calls : List MapCall) (x : ℕ) : Option MapCall :=
  calls.reverse.find? fun k => decide (k.Covers x)

theorem lastCall_concat (calls : List MapCall) (k : MapCall) (x : ℕ) :
    lastCall (calls ++ [k]) x = if k.Covers x then some k else lastCall calls x := by
  rw [lastCall, List.reverse_append, List.reverse_singleton, List.singleton_append, List.find?_cons]
  by_cases hc : k.Covers x <;> simp [hc, lastCall]

/-- The regions of `2^shift` bytes that the rounded ranges of the calls touch. -/
def regions (calls : List MapCall) (shift : ℕ) : Finset ℕ :=
  ((Finset.range (2 ^ 39)).filter fun x => ∃ k ∈ calls, k.Covers x).image (· / 2 ^ shift)

theorem mem_regions {shift r : ℕ} :
    r ∈ regions calls shift ↔ ∃ x < 2 ^ 39, (∃ k ∈ calls, k.Covers x) ∧ x / 2 ^ shift = r :=
  mem_touched

include h

/-- The contents after a sequence of calls, by induction from the last call. -/
theorem writeAll_calls {x : U64} (hx : x.toNat < 2 ^ 39) (e : Path (BitVec 9) → U64) :
    writeAll e (calls.flatMap MapCall.pages) (s2Path x) =
      (lastCall calls x.toNat).elim (e (s2Path x)) fun k =>
        El2.page_desc (k.pa_start + (x - k.va_start)) k.attr_idx k.ro k.exec := by
  induction calls using List.reverseRecOn with
  | nil => rfl
  | append_singleton calls k ih =>
    have hk := h k (by simp)
    have hcalls := ih fun k' hk' => h k' (by simp [hk'])
    rw [List.flatMap_append, List.flatMap_singleton, writeAll_append, MapCall.writeAll_pages hk hx,
      hcalls, lastCall_concat]
    split <;> rfl

/-- After `el2_mmu_init` and a sequence of calls, the walk of an address ends at what the last call that
covers it asked for, and fails when no call covers it. -/
theorem lookup_calls {L : El2Layout} {t₀ t : El2Tables}
    (ht : MapCall.runAll L calls (El2.el2_mmu_init L t₀) = some t)
    (other : U64 → BitVec 9 → U64) (r : El2Regs) {x : U64} (hx : x.toNat < 2 ^ 39) :
    el2_lookup L other t (el2_mmu_enable L r) x =
      (lastCall calls x.toNat).map fun k =>
        { k.request x with attr_idx := k.attr_idx.toNat % 8 } := by
  rw [MapCall.runAll_eq] at ht
  have hm := mapPages_spec (reset_wf t₀) ht
  rw [el2_lookup_eq hm.wf, hm.entry, writeAll_calls h hx, reset_entry]
  cases hk : lastCall calls x.toNat with
  | none =>
    have hempty : s2_decode 3 L.pools.empty = .invalid := s2_decode_zero 3
    rw [Option.elim_none, hempty]
    rfl
  | some k =>
    have hmem : k ∈ calls := List.mem_reverse.mp (List.mem_of_find?_eq_some hk)
    have hc : k.Covers x.toNat := by simpa using List.find?_some hk
    obtain ⟨hpa, hlt⟩ := MapCall.pa_toNat (h k hmem) hc
    have hmod := (h k hmem hc.1).congruent
    rw [Option.elim_some, El2.decode_page_desc, Desc.page, Option.map_some, Option.map_some,
      El2.page_desc_ofLeaf, or_offset hlt (by omega)]
    rfl

/-- The same as a translation under the attributes of `MAIR_EL2`. -/
theorem walk_calls {L : El2Layout} {t₀ t : El2Tables}
    (ht : MapCall.runAll L calls (El2.el2_mmu_init L t₀) = some t)
    (other : U64 → BitVec 9 → U64) (r : El2Regs) {x : U64} (hx : x.toNat < 2 ^ 39) :
    el2_walk L other t (el2_mmu_enable L r) x =
      (lastCall calls x.toNat).map fun k => k.translation x := by
  rw [el2_walk_of_lookup hx, lookup_calls h ht other r hx, Option.map_map]
  rfl

end Calls

section VaFits

variable {calls : List MapCall} (h : ∀ k ∈ calls, k.VaFits)
include h

theorem mem_calls_pages {x : U64} (hx : x.toNat < 2 ^ 39) :
    s2Path x ∈ (calls.flatMap MapCall.pages).map Prod.fst ↔ ∃ k ∈ calls, k.Covers x.toNat := by
  rw [List.map_flatMap, List.mem_flatMap]
  constructor
  · rintro ⟨k, hk, hmem⟩
    exact ⟨k, hk, (MapCall.mem_pages_iff (h k hk) hx).mp hmem⟩
  · rintro ⟨k, hk, hc⟩
    exact ⟨k, hk, (MapCall.mem_pages_iff (h k hk) hx).mpr hc⟩

theorem mem_regions_iff (shift r : ℕ) : r ∈ regions calls shift ↔ ∃ x : U64, x.toNat < 2 ^ 39 ∧
    s2Path x ∈ (calls.flatMap MapCall.pages).map Prod.fst ∧ x.toNat / 2 ^ shift = r :=
  mem_touched_iff (fun _ => mem_calls_pages h) shift r

/-- A sequence of calls returns exactly when it touches no more regions than there are tables. -/
theorem calls_isSome_iff (L : El2Layout) (t₀ : El2Tables) :
    (MapCall.runAll L calls (El2.el2_mmu_init L t₀)).isSome ↔
      (regions calls 30).card ≤ EL2_MAX_L2_TABLES ∧ (regions calls 21).card ≤ EL2_MAX_L3_TABLES := by
  rw [MapCall.runAll_eq, ← roots_card (mem_regions_iff h 30), ← branches_card (mem_regions_iff h 21)]
  exact mapPages_isSome_iff t₀ _

end VaFits

/-! ## The size of a call that returned -/

/-- The first- and second-level indices of an address. -/
def branchOf (x : U64) : BitVec 9 × BitVec 9 := ((s2Path x).1, (s2Path x).2.1)

/-- They are the number of the address's region, up to the end of the 39-bit space. -/
theorem region_eq_of_branchOf {x y : U64} (h : branchOf x = branchOf y) :
    x.toNat / 2 ^ 21 % 2 ^ 18 = y.toNat / 2 ^ 21 % 2 ^ 18 := by
  obtain ⟨h1, h2⟩ := Prod.mk.inj h
  have hroot := congrArg BitVec.toNat h1
  have hbranch := congrArg BitVec.toNat h2
  simp only [s2Path, lvlIndex_toNat] at hroot hbranch
  generalize x.toNat = n at hroot hbranch ⊢
  generalize y.toNat = k at hroot hbranch ⊢
  have hsplit : ∀ n : ℕ, n / 2 ^ 30 = n / 2 ^ 21 / 2 ^ 9 := by
    intro n
    rw [Nat.div_div_eq_div_mul, ← pow_add]
  rw [hsplit, hsplit] at hroot
  omega

/-- The indices of every page of a call stand among those of the build. -/
theorem branchOf_mem_branches {calls : List MapCall} {k : MapCall} (hk : k ∈ calls) {x : U64}
    (hfit : pageRound (k.va_start.toNat + k.size.toNat) < 2 ^ 64)
    (hlo : k.va_start.toNat ≤ x.toNat) (hhi : x.toNat < k.va_start.toNat + k.size.toNat) :
    branchOf x ∈ branches (calls.flatMap MapCall.pages) := by
  have hround := le_pageRound (k.va_start.toNat + k.size.toNat)
  have hsize : k.size ≠ 0 := by
    intro hz
    have hzero : (0 : U64).toNat = 0 := rfl
    rw [hz, hzero] at hhi
    omega
  have hpath : s2Path x ∈ rangePaths k.va_start k.size :=
    (mem_rangePaths fun _ => hfit).mpr ⟨hsize, x, by omega, by omega, rfl⟩
  rw [← MapCall.pages_paths] at hpath
  obtain ⟨p, hp, heq⟩ := List.mem_map.mp hpath
  have hbranch : branchOf x = (p.1.1, p.1.2.1) := by rw [heq, branchOf]
  rw [branches, List.mem_toFinset, hbranch]
  exact List.mem_map_of_mem (List.mem_flatMap.mpr ⟨k, hk, hp⟩)

/-- A build that has returned from a call has a third-level table for each of its regions. -/
theorem size_le_of_built {L : El2Layout} {calls : List MapCall} {t₀ t : El2Tables}
    (h : MapCall.runAll L calls (El2.el2_mmu_init L t₀) = some t) {k : MapCall} (hk : k ∈ calls)
    (hfit : pageRound (k.va_start.toNat + k.size.toNat) < 2 ^ 64) :
    k.size.toNat ≤ EL2_MAX_L3_TABLES * 2 ^ 21 := by
  have hround := le_pageRound (k.va_start.toNat + k.size.toNat)
  have hreturns : (mapPages L.pools (calls.flatMap MapCall.pages) (reset L.pools t₀)).isSome :=
    Option.isSome_of_eq_some ((MapCall.runAll_eq L calls _).symm.trans h)
  have hcard : (branches (calls.flatMap MapCall.pages)).card ≤ EL2_MAX_L3_TABLES :=
    ((mapPages_isSome_iff t₀ _).mp hreturns).2
  have hfew : EL2_MAX_L3_TABLES < 2 ^ 18 := by decide
  generalize EL2_MAX_L3_TABLES = tables at hcard hfew ⊢
  by_contra hbig
  -- one region more than there are tables
  have haddr : ∀ i ∈ Finset.range (tables + 1),
      (k.va_start + BitVec.ofNat 64 (i * 2 ^ 21)).toNat = k.va_start.toNat + i * 2 ^ 21 := by
    intro i hi
    have hle := Finset.mem_range_succ_iff.mp hi
    rw [BitVec.toNat_add, BitVec.toNat_ofNat]
    omega
  have hmem : ∀ i ∈ Finset.range (tables + 1),
      branchOf (k.va_start + BitVec.ofNat 64 (i * 2 ^ 21)) ∈ branches (calls.flatMap MapCall.pages) := by
    intro i hi
    have hle := Finset.mem_range_succ_iff.mp hi
    exact branchOf_mem_branches hk hfit (by rw [haddr i hi]; omega) (by rw [haddr i hi]; omega)
  have hinj : ∀ i ∈ Finset.range (tables + 1), ∀ j ∈ Finset.range (tables + 1),
      branchOf (k.va_start + BitVec.ofNat 64 (i * 2 ^ 21)) =
        branchOf (k.va_start + BitVec.ofNat 64 (j * 2 ^ 21)) → i = j := by
    intro i hi j hj hij
    have hle := Finset.mem_range_succ_iff.mp hi
    have hle' := Finset.mem_range_succ_iff.mp hj
    have hregion := region_eq_of_branchOf hij
    rw [haddr i hi, haddr j hj, Nat.add_mul_div_right _ _ (by decide),
      Nat.add_mul_div_right _ _ (by decide)] at hregion
    omega
  have hlarge := Finset.card_le_card_of_injOn _ hmem hinj
  rw [Finset.card_range] at hlarge
  omega

end Schism
