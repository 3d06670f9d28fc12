import Schism.Layout
import Schism.Proofs.BootProofs
import Schism.Proofs.Stage2Proofs

/-!
# What a guest can reach

Both vCPUs get the same `VTTBR_EL2`, so both see the one map that `el2_main` built: the window from
`0x40000000` to `0x80000000`, which holds EL2's image as well.
-/

namespace Schism

open Bits PageTables S2

/-! ## The root of both guests -/

/-- `VTTBR_EL2` holds the address of `s2_l1`; the VMID lies above the address field. -/
theorem s2_program_regs_vttbr (L : S2Layout) (m : Machine) :
    (s2_program_regs_and_enable L m).mrs .VTTBR_EL2 &&& oaMask = L.s2_l1 := by
  have hbase : L.s2_l1 &&& PA_48_MASK &&& oaMask = L.s2_l1 := by
    rw [BitVec.and_assoc, show PA_48_MASK &&& oaMask = oaMask by decide, s2_l1_and_oaMask]
  have hvmid : ∀ vmidbits : U64, ((VMID &&& if vmidbits = 0x2 then 0xffff else 0xff).setWidth 64 : U64)
      <<< 48 &&& oaMask = 0 := by
    intro vmidbits
    split <;> decide
  have hv : (s2_program_regs_and_enable L m).mrs .VTTBR_EL2 =
      ((VMID &&& if (m.mrs .ID_AA64MMFR1_EL1 >>> 4) &&& 0xf = 0x2 then 0xffff else 0xff).setWidth 64 :
        U64) <<< 48 ||| (L.s2_l1 &&& PA_48_MASK) := rfl
  rw [hv, BitVec.and_or_distrib_right, hvmid, hbase]
  exact BitVec.zero_or

/-- The two vCPUs that `el2_main` initialises. -/
def guests : List VcpuPtr := [0, 1]

theorem boot_vcpus_vttbr (entry₀ entry₁ : U64) (s : State) {p : VcpuPtr} (hp : p ∈ guests) :
    ((boot_vcpus entry₀ entry₁ s).vcpu p).arch.vttbr_el2 = s.m.mrs .VTTBR_EL2 := by
  rcases List.mem_pair.mp hp with rfl | rfl
  · rfl
  · rfl

/-! ## The pages of a layout -/

/-- Slot `vm` of the layout holds no page: its rounded size is zero, or its end wraps around so that
the loop over its pages ends at once. -/
def S2Args.EmptySlot (a : S2Args) (vm : ℕ) : Prop :=
  let size := align_up a.vm_size S2_PAGE_SIZE
  let slot_ipa := a.ipa + BitVec.ofNat 64 vm * (size + align_up a.guard_bytes S2_PAGE_SIZE)
  size = 0 ∨ align_up (slot_ipa + size) S2_PAGE_SIZE ≤ align_down slot_ipa S2_PAGE_SIZE

/-- The pages that the builder writes for the layout. -/
def S2Args.pages (a : S2Args) : List (Path (BitVec 9) × U64) :=
  slotPages a.ipa a.pa a.vm_size a.vm_count a.guard_bytes a.read a.write a.exec

theorem pageCount_eq_zero_iff (ipa_start size : U64) : pageCount ipa_start size = 0 ↔
    size = 0 ∨ align_up (ipa_start + size) S2_PAGE_SIZE ≤ align_down ipa_start S2_PAGE_SIZE := by
  have hstart := align_down_toNat ipa_start
  have hend := align_up_toNat (ipa_start + size)
  rw [pageCount, BitVec.le_def]
  by_cases hsize : size = 0
  · simp [hsize]
  · rw [if_neg hsize, or_iff_right hsize]
    omega

theorem S2Args.pages_eq_nil_iff (a : S2Args) :
    a.pages = [] ↔ ∀ vm < a.vm_count.toNat, a.EmptySlot vm := by
  simp only [pages, slotPages, List.flatMap_eq_nil_iff, List.mem_range, rangePages,
    List.map_eq_nil_iff, List.range_eq_nil, pageCount_eq_zero_iff]
  rfl

/-- From a cleared `.bss` the builder writes the pages of its slots, also when there are none. -/
theorem s2_build_cleared (L : S2Layout) (a : S2Args) :
    s2_build_tables_identity L a.ipa a.pa a.vm_size a.vm_count a.guard_bytes a.read a.write a.exec
        S2Tables.cleared = mapPages L.pools a.pages (reset L.pools S2Tables.cleared) := by
  by_cases hnone : a.vm_count = 0 ∨ a.vm_size = 0
  · have hpages : a.pages = [] := by
      rw [a.pages_eq_nil_iff]
      intro vm hvm
      rcases hnone with hcount | hsize
      · rw [hcount] at hvm
        exact absurd hvm (Nat.not_lt_zero vm)
      · exact Or.inl (by rw [hsize]; decide)
    rw [s2_build_tables_identity, if_pos hnone, hpages]
    rfl
  · rw [not_or] at hnone
    exact s2_build_eq L hnone.1 hnone.2 _

/-- What `el2_main` has set up: the tables, and one root for both vCPUs. -/
theorem el2_boot_eq_some {L : S2Layout} {a : S2Args} {entry₀ entry₁ vectors : U64} {m : Machine}
    {t : S2Tables} {s : State} (h : el2_boot L a entry₀ entry₁ vectors m = some (t, s)) :
    mapPages L.pools a.pages (reset L.pools S2Tables.cleared) = some t ∧
      ∀ p ∈ guests, (s.vcpu p).arch.vttbr_el2 &&& oaMask = L.s2_l1 := by
  obtain ⟨t', ht, hts⟩ := Option.bind_eq_some_iff.mp h
  obtain ⟨rfl, rfl⟩ := Prod.mk.inj (Option.some.inj hts)
  refine ⟨(s2_build_cleared L a).symm.trans ht, ?_⟩
  intro p hp
  rw [boot_vcpus_vttbr _ _ _ hp]
  exact s2_program_regs_vttbr L m

theorem el2_boot_of_pages {L : S2Layout} {a : S2Args} {t : S2Tables}
    (ht : mapPages L.pools a.pages (reset L.pools S2Tables.cleared) = some t)
    (entry₀ entry₁ vectors : U64) (m : Machine) :
    ∃ s, el2_boot L a entry₀ entry₁ vectors m = some (t, s) := by
  rw [← s2_build_cleared] at ht
  exact ⟨_, Option.bind_eq_some_iff.mpr ⟨t, ht, rfl⟩⟩

/-- `el2_main` sets up every window that fits the pools. -/
theorem el2_boot_returns {a : S2Args} (h : SlotWindow a.ipa a.pa a.vm_size a.vm_count a.guard_bytes)
    (L : S2Layout) (entry₀ entry₁ vectors : U64) (m : Machine) :
    ∃ t s, el2_boot L a entry₀ entry₁ vectors m = some (t, s) := by
  obtain ⟨t, ht⟩ := h.build_returns a.read a.write a.exec L S2Tables.cleared
  obtain ⟨s, hs⟩ := el2_boot_of_pages (a := a) ht entry₀ entry₁ vectors m
  exact ⟨t, s, hs⟩

/-! ## The window of `el2_main` -/

/-- One slot touches the regions from that of its first page to that of its last. -/
theorem slotRegions_one_card {ipa size step shift : ℕ} :
    (slotRegions ipa size step 1 shift).card ≤ (ipa + size) / 2 ^ shift + 1 - ipa / 2 ^ shift := by
  have hsub : slotRegions ipa size step 1 shift ⊆
      Finset.Icc (ipa / 2 ^ shift) ((ipa + size) / 2 ^ shift) := by
    intro r hr
    obtain ⟨⟨k, i⟩, hq, rfl⟩ := Finset.mem_image.mp hr
    obtain ⟨hk, hi⟩ := Finset.mem_product.mp hq
    simp only [Finset.mem_range, Nat.lt_one_iff] at hk hi
    subst hk
    rw [Finset.mem_Icc]
    exact ⟨Nat.div_le_div_right (by omega), Nat.div_le_div_right (by omega)⟩
  exact (Finset.card_le_card hsub).trans (Nat.card_Icc _ _).le

/-- The one slot of `el2_main` needs a second-level table and 512 third-level ones. -/
theorem slotWindow_main : SlotWindow el2_main_args.ipa el2_main_args.pa el2_main_args.vm_size
    el2_main_args.vm_count el2_main_args.guard_bytes where
  ipa_aligned := by decide
  pa_aligned := by decide
  size_pos := by decide
  count_pos := by decide
  ipa_fits := by decide
  pa_fits := by decide
  gigabytes := slotRegions_one_card.trans (by decide)
  blocks := slotRegions_one_card.trans (by decide)

theorem inSlot_main (x : U64) : (∃ k < el2_main_args.vm_count.toNat,
    InSlot el2_main_args.ipa el2_main_args.vm_size el2_main_args.guard_bytes k x) ↔
      0x40000000 ≤ x.toNat ∧ x.toNat < 0x80000000 := by
  constructor
  · rintro ⟨k, hk, hlo, hhi⟩
    have hk0 : k = 0 := Nat.lt_one_iff.mp hk
    subst hk0
    rw [Nat.zero_mul] at hlo hhi
    exact ⟨hlo, hhi⟩
  · rintro ⟨hlo, hhi⟩
    refine ⟨0, by decide, ?_⟩
    rw [InSlot, Nat.zero_mul]
    exact ⟨hlo, hhi⟩

/-- The map of `el2_main` is the identity on its window. -/
theorem main_walk {L : S2Layout} {t : S2Tables}
    (ht : mapPages L.pools el2_main_args.pages (reset L.pools S2Tables.cleared) = some t)
    (other : U64 → BitVec 9 → U64) {vttbr : U64} (hv : vttbr &&& oaMask = L.s2_l1) (x : U64)
    (tr : S2Translation) : s2_walk L other t vttbr x = some tr ↔
      (0x40000000 ≤ x.toNat ∧ x.toNat < 0x80000000) ∧
        tr = { pa := x, read := true, write := true, exec := true } := by
  by_cases hx : x.toNat < 2 ^ 39
  · have hid : el2_main_args.pa + (x - el2_main_args.ipa) = x := add_sub_cancel _ _
    rw [built_walk slotWindow_main ht other hv hx tr, inSlot_main, hid]
    rfl
  · rw [s2_walk, if_pos (by omega)]
    simp only [reduceCtorEq, false_iff]
    omega

/-- EL2's own memory lies in the window. -/
theorem LinkLayout.owned_in_window (K : LinkLayout) {a : ℕ} (h : K.OwnedByEl2 a) :
    0x40000000 ≤ a ∧ a < 0x80000000 := by
  have hend := K.image_below
  simp only [Sections.OwnedByEl2, Sections.stack_top, Sections.stack_bottom, Sections.stack_guard,
    Sections.bss_end, Sections.bss_start, Sections.data_end, Sections.data_start,
    Sections.rodata_end, Sections.rodata_start, Sections.text_end, Sections.text_start, ALIGN]
    at h hend
  omega

/-- `el2_main` gives both guests the window from `0x40000000` to `0x80000000`, all of it readable,
writable and executable and mapped onto itself, and nothing else. EL2's image is part of it. -/
theorem guest_reach_exact (K : LinkLayout) (other : U64 → BitVec 9 → U64)
    (entry₀ entry₁ vectors : U64) (m : Machine) :
    ∃ t s, el2_main K.s2 entry₀ entry₁ vectors m = some (t, s) ∧
      (∀ p ∈ guests, ∀ x tr, s2_walk K.s2 other t (s.vcpu p).arch.vttbr_el2 x = some tr ↔
        (0x40000000 ≤ x.toNat ∧ x.toNat < 0x80000000) ∧
          tr = { pa := x, read := true, write := true, exec := true }) ∧
      ∀ a, K.OwnedByEl2 a → 0x40000000 ≤ a ∧ a < 0x80000000 := by
  obtain ⟨t, s, hs⟩ := el2_boot_returns slotWindow_main K.s2 entry₀ entry₁ vectors m
  obtain ⟨ht, hroot⟩ := el2_boot_eq_some hs
  exact ⟨t, s, hs, fun p hp x tr => main_walk ht other (hroot p hp) x tr,
    fun a ha => K.owned_in_window ha⟩

/-- A small image with the tables one after the other in `.bss`. -/
def packedImage : LinkLayout where
  text := 0x8000
  rodata := 0x2000
  data := 0x1000
  bss := 0x4c0000
  s2 := packedLayout
  el2_l1 := 0x40461000
  l2_pool := 0x40462000
  l3_pool := 0x40482000
  tables_in_bss := by decide
  tables_apart := by decide
  image_below := by decide

/-- On that image each guest can write the stage-2 root table itself. -/
theorem guest_writes_tables :
    ∃ t s, el2_main packedImage.s2 0x40001000 0x40002000 0x40000800 coldMachine = some (t, s) ∧
      ∀ p ∈ guests, ∃ tr, s2_walk packedImage.s2 (fun _ _ => 0) t (s.vcpu p).arch.vttbr_el2
          packedLayout.s2_l1 = some tr ∧
        tr.write = true ∧ packedImage.OwnedByEl2 tr.pa.toNat := by
  obtain ⟨t, s, hs⟩ := el2_boot_returns slotWindow_main packedImage.s2 0x40001000 0x40002000 0x40000800
    coldMachine
  obtain ⟨ht, hroot⟩ := el2_boot_eq_some hs
  refine ⟨t, s, hs, fun p hp => ⟨⟨packedLayout.s2_l1, true, true, true⟩, ?_, rfl, ?_⟩⟩
  · exact (main_walk ht _ (hroot p hp) _ _).mpr ⟨by decide, rfl⟩
  · exact Or.inr (Or.inr (Or.inl (by decide)))

/-! ## Isolation of the guests -/

/-- The physical pages that a guest with the given root can write. -/
def writablePages (L : S2Layout) (other : U64 → BitVec 9 → U64) (t : S2Tables) (vttbr : U64) :
    Set U64 :=
  {page | ∃ x tr, s2_walk L other t vttbr x = some tr ∧ tr.write = true ∧ tr.pa >>> 12 = page}

/-- No physical page is writable for two guests. -/
def GuestsIsolated (L : S2Layout) (other : U64 → BitVec 9 → U64) (t : S2Tables) (s : State) : Prop :=
  ∀ p ∈ guests, ∀ q ∈ guests, p ≠ q →
    Disjoint (writablePages L other t (s.vcpu p).arch.vttbr_el2)
      (writablePages L other t (s.vcpu q).arch.vttbr_el2)

/-- The walk depends on the address field of the root only. -/
theorem writablePages_congr {L : S2Layout} {other : U64 → BitVec 9 → U64} {t : S2Tables} {v w : U64}
    (h : v &&& oaMask = w &&& oaMask) : writablePages L other t v = writablePages L other t w := by
  have hwalk : s2_walk L other t v = s2_walk L other t w := by
    funext x
    rw [s2_walk, s2_walk, h]
  rw [writablePages, writablePages, hwalk]

/-- The descriptors that are written carry the requested permissions. -/
theorem S2Args.desc_of_mem_pages {a : S2Args} {p : Path (BitVec 9) × U64} (hp : p ∈ a.pages) :
    ∃ pa, p.2 = page_desc pa a.read a.write a.exec := by
  obtain ⟨vm, -, hp⟩ := List.mem_flatMap.mp hp
  obtain ⟨i, -, rfl⟩ := List.mem_map.mp hp
  exact ⟨_, rfl⟩

/-- A guest can write something exactly when a page is mapped and writing was requested. -/
theorem writablePages_eq_empty_iff {L : S2Layout} {a : S2Args} {t : S2Tables}
    (ht : mapPages L.pools a.pages (reset L.pools S2Tables.cleared) = some t)
    (other : U64 → BitVec 9 → U64) {vttbr : U64} (hv : vttbr &&& oaMask = L.s2_l1) :
    writablePages L other t vttbr = ∅ ↔ a.write = 0 ∨ a.pages = [] := by
  have hwf := (mapPages_spec (reset_wf _) ht).wf
  constructor
  · intro hnone
    by_contra hcon
    obtain ⟨hw, hpages⟩ := not_or.mp hcon
    obtain ⟨p, hp⟩ := List.exists_mem_of_ne_nil _ hpages
    obtain ⟨x, hx, hpath⟩ := exists_s2Path p.1
    rcases mapPages_entry_cases ht (s2Path x) with ⟨q, hq, -, hentry⟩ | ⟨hno, -⟩
    · obtain ⟨pa, hdesc⟩ := S2Args.desc_of_mem_pages hq
      have hwalk : s2_walk L other t vttbr x = _ := s2_walk_eq hwf hv hx
      rw [hentry, hdesc, s2_decode_page_desc, Desc.page, Option.map_some, page_desc_translate]
        at hwalk
      exact Set.eq_empty_iff_forall_notMem.mp hnone _ ⟨x, _, hwalk, bne_iff_ne.mpr hw, rfl⟩
    · exact hno p hp hpath.symm
  · intro hcond
    refine Set.eq_empty_iff_forall_notMem.mpr ?_
    rintro page ⟨x, tr, hwalk, hwrite, -⟩
    have hx : x.toNat < 2 ^ 39 := by
      by_contra hx
      rw [s2_walk, if_pos (by omega)] at hwalk
      cases hwalk
    rw [s2_walk_eq hwf hv hx] at hwalk
    rcases mapPages_entry_cases ht (s2Path x) with ⟨q, hq, -, hentry⟩ | ⟨-, hentry⟩
    · obtain ⟨pa, hdesc⟩ := S2Args.desc_of_mem_pages hq
      rw [hentry, hdesc, s2_decode_page_desc, Desc.page, Option.map_some, page_desc_translate]
        at hwalk
      cases hwalk
      rcases hcond with hw | hpages
      · exact absurd hw (bne_iff_ne.mp hwrite)
      · rw [hpages] at hq
        exact absurd hq List.not_mem_nil
    · rw [hentry] at hwalk
      change ((s2_decode 3 0).page).map _ = _ at hwalk
      rw [s2_decode_zero] at hwalk
      cases hwalk

/-- Both guests have the same root, so they are isolated only if neither can write. -/
theorem guestsIsolated_iff_pages {L : S2Layout} {a : S2Args} {entry₀ entry₁ vectors : U64}
    {m : Machine} {t : S2Tables} {s : State}
    (h : el2_boot L a entry₀ entry₁ vectors m = some (t, s)) (other : U64 → BitVec 9 → U64) :
    GuestsIsolated L other t s ↔ a.write = 0 ∨ a.pages = [] := by
  obtain ⟨ht, hroot⟩ := el2_boot_eq_some h
  have hsame : ∀ p ∈ guests, writablePages L other t (s.vcpu p).arch.vttbr_el2 =
      writablePages L other t L.s2_l1 := fun p hp =>
    writablePages_congr ((hroot p hp).trans (s2_l1_and_oaMask L).symm)
  rw [← writablePages_eq_empty_iff ht other (s2_l1_and_oaMask L)]
  constructor
  · intro hiso
    have hdisj := hiso 0 (by decide) 1 (by decide) (by decide)
    rw [hsame 0 (by decide), hsame 1 (by decide)] at hdisj
    exact disjoint_self.mp hdisj
  · intro hempty p hp q hq _
    rw [hsame p hp, hempty]
    exact Set.empty_disjoint _

/-- For every slot layout the two guests of `el2_main` share no writable page exactly when the layout
is not writable or has no page at all: the slots are not handed to different guests. -/
theorem guests_isolated_iff (L : S2Layout) (a : S2Args) (other : U64 → BitVec 9 → U64)
    {entry₀ entry₁ vectors : U64} {m : Machine} {t : S2Tables} {s : State}
    (h : el2_boot L a entry₀ entry₁ vectors m = some (t, s)) :
    GuestsIsolated L other t s ↔ a.write = 0 ∨ ∀ vm < a.vm_count.toNat, a.EmptySlot vm := by
  rw [guestsIsolated_iff_pages h, a.pages_eq_nil_iff]

/-- Two slots of sixteen pages. -/
def twoSlots : S2Args where
  ipa := 0x40000000
  pa := 0x40000000
  vm_size := 0x10000
  vm_count := 2
  guard_bytes := S2_VM_GUARD_BYTES
  read := 1
  write := 1
  exec := 1

theorem slotWindow_two : SlotWindow twoSlots.ipa twoSlots.pa twoSlots.vm_size twoSlots.vm_count
    twoSlots.guard_bytes where
  ipa_aligned := by decide
  pa_aligned := by decide
  size_pos := by decide
  count_pos := by decide
  ipa_fits := by decide
  pa_fits := by decide
  gigabytes := by decide
  blocks := by decide

theorem twoSlots_boot : ∃ t s, el2_boot packedLayout twoSlots 0x40001000 0x40002000 0x40000800
    coldMachine = some (t, s) :=
  el2_boot_returns slotWindow_two _ _ _ _ _

theorem guests_isolated_iff_two : ∃ t s,
    el2_boot packedLayout twoSlots 0x40001000 0x40002000 0x40000800 coldMachine = some (t, s) ∧
      (GuestsIsolated packedLayout (fun _ _ => 0) t s ↔
        twoSlots.write = 0 ∨ ∀ vm < twoSlots.vm_count.toNat, twoSlots.EmptySlot vm) := by
  obtain ⟨t, s, h⟩ := twoSlots_boot
  exact ⟨t, s, h, guests_isolated_iff _ _ _ h⟩

/-- With two slots both guests can write both of them. -/
theorem guests_share_slots : ∃ t s,
    el2_boot packedLayout twoSlots 0x40001000 0x40002000 0x40000800 coldMachine = some (t, s) ∧
      ¬ GuestsIsolated packedLayout (fun _ _ => 0) t s := by
  obtain ⟨t, s, h⟩ := twoSlots_boot
  refine ⟨t, s, h, ?_⟩
  intro hiso
  rcases (guestsIsolated_iff_pages h _).mp hiso with hwrite | hpages
  · exact absurd hwrite (by decide)
  · rcases (twoSlots.pages_eq_nil_iff).mp hpages 0 (by decide) with hsize | hwrap
    · exact absurd hsize (by decide)
    · exact absurd hwrap (by decide)

end Schism
