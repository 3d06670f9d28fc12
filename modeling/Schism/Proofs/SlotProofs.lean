import Schism.Proofs.Stage2Proofs

/-!
# Slots for all arguments

`s2_build_tables_identity` computes with machine words, while a caller thinks of slot `k` as the numbers
from `ipa + k * (S + G)` on. The two agree as long as a slot ends below `2^39`
(`s2_requests_not_folded_iff`), and the guard between two slots is whole only for a page-aligned base
(`guard_honoured_iff`).
-/

namespace Schism

open Bits PageTables S2

/-! ## Slots as unbounded numbers -/

section Slots

variable (ipa vm_size guard_bytes : U64) (k : ℕ)

/-- The first byte of slot `k`. -/
def slotStart : ℕ := ipa.toNat + k * slotStep vm_size guard_bytes

/-- The first byte behind slot `k`. -/
def slotEnd : ℕ := slotStart ipa vm_size guard_bytes k + pageRound vm_size.toNat

/-- `x` lies in the page-rounded extent of slot `k`; an empty slot has none. -/
def InExtent (x : ℕ) : Prop :=
  vm_size ≠ 0 ∧ slotStart ipa vm_size guard_bytes k / 2 ^ 12 * 2 ^ 12 ≤ x ∧
    x < pageRound (slotEnd ipa vm_size guard_bytes k)

instance (x : ℕ) : Decidable (InExtent ipa vm_size guard_bytes k x) :=
  inferInstanceAs (Decidable (_ ∧ _ ∧ _))

/-- The mapping loop of slot `k` has a page to map: neither its rounded size nor its rounded end, counted
from its start modulo `2^64`, has wrapped around. -/
def SlotRuns : Prop :=
  pageRound vm_size.toNat < 2 ^ 64 ∧
    pageRound (slotStart ipa vm_size guard_bytes k % 2 ^ 64 + pageRound vm_size.toNat) < 2 ^ 64

instance : Decidable (SlotRuns ipa vm_size guard_bytes k) := inferInstanceAs (Decidable (_ ∧ _))

/-- The pages that the call of `s2_map_identity_range` for slot `k` writes. -/
def slotPaths : List (Path (BitVec 9)) :=
  rangePaths (ipa + BitVec.ofNat 64 k * slotStride vm_size guard_bytes) (align_up vm_size S2_PAGE_SIZE)

variable {ipa vm_size guard_bytes k}

theorem slotStride_toNat :
    (slotStride vm_size guard_bytes).toNat = slotStep vm_size guard_bytes % 2 ^ 64 := by
  rw [slotStride, BitVec.toNat_add, align_up_toNat_mod, align_up_toNat_mod, ← Nat.add_mod]
  rfl

/-- The builder's slot address is the number modulo `2^64`. -/
theorem slot_ipa_toNat : (ipa + BitVec.ofNat 64 k * slotStride vm_size guard_bytes).toNat =
    slotStart ipa vm_size guard_bytes k % 2 ^ 64 := by
  rw [BitVec.toNat_add, BitVec.toNat_mul, BitVec.toNat_ofNat, slotStride_toNat, ← Nat.mul_mod,
    Nat.add_mod_mod]
  rfl

/-- A loop whose rounded end wraps around maps nothing. -/
theorem pageCount_of_wraps {start size : U64} (hs : size.toNat % 2 ^ 12 = 0)
    (h : 2 ^ 64 ≤ pageRound (start.toNat + size.toNat)) : pageCount start size = 0 := by
  have hlt := start.isLt
  have hlt' := size.isLt
  simp only [pageRound] at h
  unfold pageCount
  split
  · rfl
  · rw [align_up_toNat, align_down_toNat, BitVec.toNat_add]
    omega

/-- A loop that does not run has no page. -/
theorem pageCount_of_not_runs (h : ¬ SlotRuns ipa vm_size guard_bytes k) :
    pageCount (ipa + BitVec.ofNat 64 k * slotStride vm_size guard_bytes)
      (align_up vm_size S2_PAGE_SIZE) = 0 := by
  by_cases hround : pageRound vm_size.toNat < 2 ^ 64
  · refine pageCount_of_wraps (align_up_mod _) ?_
    rw [slot_ipa_toNat, align_up_of_fits hround]
    exact not_lt.mp fun hend => h ⟨hround, hend⟩
  · -- the rounded size is the machine's zero
    have hempty : align_up vm_size S2_PAGE_SIZE = 0 := by
      apply BitVec.eq_of_toNat_eq
      have hlt := vm_size.isLt
      have hz : (0 : U64).toNat = 0 := rfl
      rw [align_up_toNat_mod, hz]
      simp only [pageRound] at hround ⊢
      omega
    rw [pageCount, if_pos hempty]

/-- The pages of slot `k`, for all arguments. -/
theorem mem_slotPaths (hs : vm_size ≠ 0) {q : Path (BitVec 9)} :
    q ∈ slotPaths ipa vm_size guard_bytes k ↔ SlotRuns ipa vm_size guard_bytes k ∧
      ∃ y : U64, slotStart ipa vm_size guard_bytes k % 2 ^ 64 / 2 ^ 12 * 2 ^ 12 ≤ y.toNat ∧
        y.toNat < pageRound (slotStart ipa vm_size guard_bytes k % 2 ^ 64 + pageRound vm_size.toNat) ∧
        s2Path y = q := by
  have hstart := @slot_ipa_toNat ipa vm_size guard_bytes k
  by_cases hruns : SlotRuns ipa vm_size guard_bytes k
  · have hsize := align_up_of_fits hruns.1
    have hne := align_up_ne_zero hs hruns.1
    rw [slotPaths, mem_rangePaths (by rw [hstart, hsize]; exact fun _ => hruns.2), hstart, hsize]
    simp only [hne, hruns, ne_eq, not_false_eq_true, true_and]
  · refine iff_of_false ?_ (fun h => hruns h.1)
    rw [slotPaths, rangePaths, pageCount_of_not_runs hruns]
    exact List.not_mem_nil

end Slots

/-! ## What a build maps -/

section Built

variable {L : S2Layout} {ipa pa vm_size guard_bytes : U64} {vm_count : U32} {read write exec : U8}
  {t₀ t : S2Tables}

/-- The pages of the builder are those of the slots. -/
theorem mem_slotPages_paths {q : Path (BitVec 9)} :
    q ∈ (slotPages ipa pa vm_size vm_count guard_bytes read write exec).map Prod.fst ↔
      ∃ k < vm_count.toNat, q ∈ slotPaths ipa vm_size guard_bytes k := by
  simp only [slotPages, List.map_flatMap, List.mem_flatMap, List.mem_range, rangePages_paths]
  rfl

theorem slotPages_desc {p : Path (BitVec 9) × U64}
    (hp : p ∈ slotPages ipa pa vm_size vm_count guard_bytes read write exec) :
    ∃ a, p.2 = page_desc a read write exec := by
  obtain ⟨k, -, hk⟩ := List.mem_flatMap.mp hp
  obtain ⟨i, -, rfl⟩ := List.mem_map.mp hk
  exact ⟨_, rfl⟩

/-- After a build the walk of an address succeeds exactly when some slot wrote its page. -/
theorem built_walk_isSome
    (ht : mapPages L.pools (slotPages ipa pa vm_size vm_count guard_bytes read write exec)
      (reset L.pools t₀) = some t) (other : U64 → BitVec 9 → U64) {x : U64} (hx : x.toNat < 2 ^ 39) :
    (s2_walk L other t L.s2_l1 x).isSome ↔
      ∃ k < vm_count.toNat, s2Path x ∈ slotPaths ipa vm_size guard_bytes k := by
  have hwf := (mapPages_spec (reset_wf t₀) ht).wf
  rw [s2_walk_eq hwf (s2_l1_and_oaMask L) hx, ← mem_slotPages_paths]
  rcases mapPages_entry_cases ht (s2Path x) with ⟨p, hp, hpath, hentry⟩ | ⟨hno, hentry⟩
  · obtain ⟨a, ha⟩ := slotPages_desc hp
    rw [hentry, ha, s2_decode_page_desc, ← hpath]
    exact iff_of_true rfl (List.mem_map_of_mem hp)
  · have hzero : t.entry L.pools (s2Path x) = 0 := hentry
    rw [hzero, s2_decode_zero]
    refine iff_of_false (by simp [Desc.page]) ?_
    intro hmem
    obtain ⟨p, hp, hpath⟩ := List.mem_map.mp hmem
    exact hno p hp hpath

end Built

/-! ## Requests outside the 39-bit space -/

section Folding

variable (L : S2Layout) (other : U64 → BitVec 9 → U64) (ipa vm_size : U64) (vm_count : U32)
  (guard_bytes : U64)

/-- Nothing is mapped outside the slots, and no slot writes a page outside its own extent. -/
structure NotFolded (t : S2Tables) : Prop where
  walks : ∀ x : U64, x.toNat < 2 ^ 39 → (s2_walk L other t L.s2_l1 x).isSome →
    ∃ k < vm_count.toNat, InExtent ipa vm_size guard_bytes k x.toNat
  writes : ∀ k < vm_count.toNat, ∀ q ∈ slotPaths ipa vm_size guard_bytes k,
    ∃ x : U64, x.toNat < 2 ^ 39 ∧ InExtent ipa vm_size guard_bytes k x.toNat ∧ s2Path x = q

variable {L other ipa vm_size vm_count guard_bytes} {pa : U64} {read write exec : U8} {t₀ t : S2Tables}
  {k : ℕ}

/-- A slot that ends below `2^39` writes its own pages. -/
theorem slot_writes_of_le (hs : vm_size ≠ 0) (hend : SlotRuns ipa vm_size guard_bytes k →
      pageRound (slotEnd ipa vm_size guard_bytes k) ≤ 2 ^ 39)
    {q : Path (BitVec 9)} (hq : q ∈ slotPaths ipa vm_size guard_bytes k) :
    ∃ x : U64, x.toNat < 2 ^ 39 ∧ InExtent ipa vm_size guard_bytes k x.toNat ∧ s2Path x = q := by
  obtain ⟨hruns, y, hlo, hhi, rfl⟩ := (mem_slotPaths hs).mp hq
  have hle := hend hruns
  have hstart : slotStart ipa vm_size guard_bytes k < 2 ^ 64 :=
    (Nat.le_add_right _ _).trans ((le_pageRound _).trans hle) |>.trans_lt (by decide)
  rw [Nat.mod_eq_of_lt hstart] at hlo hhi
  exact ⟨y, hhi.trans_le hle, ⟨hs, hlo, hhi⟩, rfl⟩

/-- A range of pages from 0 on up to `2^39` needs a table for each GB. -/
theorem whole_space_roots (ps : List (Path (BitVec 9) × U64))
    (h : ∀ y : U64, y.toNat < 2 ^ 39 → s2Path y ∈ ps.map Prod.fst) :
    S2_MAX_L2_TABLES < (roots ps).card := by
  have hsub : (Finset.range 17).image (BitVec.ofNat 9) ⊆ roots ps := by
    intro i hi
    obtain ⟨j, hj, rfl⟩ := Finset.mem_image.mp hi
    rw [Finset.mem_range] at hj
    have hy : (BitVec.ofNat 64 (j * 2 ^ 30)).toNat = j * 2 ^ 30 := by
      rw [BitVec.toNat_ofNat]
      omega
    obtain ⟨p, hp, hpath⟩ := List.mem_map.mp (h (BitVec.ofNat 64 (j * 2 ^ 30)) (by omega))
    refine List.mem_toFinset.mpr (List.mem_map.mpr ⟨p, hp, ?_⟩)
    have hroot : p.1.1 = lvlIndex (BitVec.ofNat 64 (j * 2 ^ 30)) 30 := congrArg Prod.fst hpath
    apply BitVec.eq_of_toNat_eq
    rw [hroot, lvlIndex_toNat, hy, BitVec.toNat_ofNat]
    omega
  exact lt_of_lt_of_le (by decide) (Finset.card_le_card hsub)

/-- A slot that runs beyond `2^39` writes a page outside its extent, or it covers the whole space and
exhausts the pools. -/
theorem slot_le_of_writes (hs : vm_size ≠ 0) (hk : k < vm_count.toNat)
    (ht : (mapPages L.pools (slotPages ipa pa vm_size vm_count guard_bytes read write exec)
      (reset L.pools t₀)).isSome) (hruns : SlotRuns ipa vm_size guard_bytes k)
    (hw : ∀ q ∈ slotPaths ipa vm_size guard_bytes k,
      ∃ x : U64, x.toNat < 2 ^ 39 ∧ InExtent ipa vm_size guard_bytes k x.toNat ∧ s2Path x = q) :
    pageRound (slotEnd ipa vm_size guard_bytes k) ≤ 2 ^ 39 := by
  have hpos := le_pageRound_of_ne hs
  by_contra hbeyond
  have hmod := pageRound_mod (slotEnd ipa vm_size guard_bytes k)
  -- the first page of the loop
  have hfirst : s2Path (BitVec.ofNat 64 (slotStart ipa vm_size guard_bytes k % 2 ^ 64)) ∈
      slotPaths ipa vm_size guard_bytes k := by
    have haddr : (BitVec.ofNat 64 (slotStart ipa vm_size guard_bytes k % 2 ^ 64)).toNat =
        slotStart ipa vm_size guard_bytes k % 2 ^ 64 := by
      rw [BitVec.toNat_ofNat, Nat.mod_mod]
    refine (mem_slotPaths hs).mpr ⟨hruns, _, ?_, ?_, rfl⟩
    · rw [haddr]
      omega
    · rw [haddr]
      exact lt_of_lt_of_le (by omega) (le_pageRound _)
  obtain ⟨x, hx, ⟨-, hxlo, -⟩, -⟩ := hw _ hfirst
  have hlow : slotStart ipa vm_size guard_bytes k < 2 ^ 39 := by omega
  have hstart : slotStart ipa vm_size guard_bytes k % 2 ^ 64 = slotStart ipa vm_size guard_bytes k :=
    Nat.mod_eq_of_lt (hlow.trans (by decide))
  have hrange : ∀ y : U64, slotStart ipa vm_size guard_bytes k / 2 ^ 12 * 2 ^ 12 ≤ y.toNat →
      y.toNat ≤ 2 ^ 39 → s2Path y ∈ slotPaths ipa vm_size guard_bytes k := by
    intro y hlo hhi
    refine (mem_slotPaths hs).mpr ⟨hruns, y, by rw [hstart]; exact hlo, ?_, rfl⟩
    rw [hstart]
    exact lt_of_le_of_lt hhi (not_le.mp hbeyond)
  -- the page at 2^39 is the page at 0
  have hfold : (0x8000000000 : U64).toNat = 2 ^ 39 := rfl
  obtain ⟨z, hz, ⟨-, hzlo, -⟩, hzpath⟩ := hw _ (hrange 0x8000000000 (by rw [hfold]; omega) hfold.le)
  rw [s2Path_eq_iff_mod, hfold] at hzpath
  have hroots := whole_space_roots (slotPages ipa pa vm_size vm_count guard_bytes read write exec)
    (fun y hy => mem_slotPages_paths.mpr ⟨k, hk, hrange y (by omega) hy.le⟩)
  have hpools := ((mapPages_isSome_iff t₀ _).mp ht).1
  exact absurd hpools (not_le.mpr hroots)

/-- An extent consists of whole pages. -/
theorem inExtent_of_path {x y : U64} (hx : x.toNat < 2 ^ 39) (hy : y.toNat < 2 ^ 39)
    (hpath : s2Path y = s2Path x)
    (hin : InExtent ipa vm_size guard_bytes k y.toNat) :
    InExtent ipa vm_size guard_bytes k x.toNat := by
  obtain ⟨hs, hlo, hhi⟩ := hin
  have hmod := pageRound_mod (slotEnd ipa vm_size guard_bytes k)
  rw [s2Path_eq_iff hy hx] at hpath
  exact ⟨hs, by omega, by omega⟩

/-- A slot that ends in the 39-bit space writes the pages of its extent. -/
theorem mem_slotPaths_low (hs : vm_size ≠ 0) (hend : pageRound (slotEnd ipa vm_size guard_bytes k) ≤ 2 ^ 39)
    {x : U64} (hx : x.toNat < 2 ^ 39) : s2Path x ∈ slotPaths ipa vm_size guard_bytes k ↔
      InExtent ipa vm_size guard_bytes k x.toNat := by
  constructor
  · intro hmem
    obtain ⟨y, hy, hin, hpath⟩ := slot_writes_of_le hs (fun _ => hend) hmem
    exact inExtent_of_path hx hy hpath hin
  · rintro ⟨-, hlo, hhi⟩
    have hle := le_pageRound (slotEnd ipa vm_size guard_bytes k)
    have hstart : slotStart ipa vm_size guard_bytes k % 2 ^ 64 = slotStart ipa vm_size guard_bytes k :=
      Nat.mod_eq_of_lt ((Nat.le_add_right _ _).trans (hle.trans hend) |>.trans_lt (by decide))
    have hsize : pageRound vm_size.toNat < 2 ^ 64 :=
      (Nat.le_add_left _ _).trans (hle.trans hend) |>.trans_lt (by decide)
    refine (mem_slotPaths hs).mpr ⟨⟨hsize, ?_⟩, x, ?_, ?_, rfl⟩
    · rw [hstart]
      exact hend.trans_lt (by decide)
    · rw [hstart]
      exact hlo
    · rw [hstart]
      exact hhi

/-- A slot without bytes writes no page. -/
theorem slotPaths_empty (hs : vm_size = 0) : slotPaths ipa vm_size guard_bytes k = [] := by
  subst hs
  rfl

/-- Where the builder returns at once, every slot is empty. -/
theorem slot_empty (hzero : vm_count = 0 ∨ vm_size = 0) (hk : k < vm_count.toNat) : vm_size = 0 := by
  rcases hzero with hc | hs
  · rw [hc] at hk
    exact absurd hk (Nat.not_lt_zero k)
  · exact hs

/-- Where the builder returns at once, only what was there before can be mapped. -/
theorem notFolded_iff_of_empty (hzero : vm_count = 0 ∨ vm_size = 0) :
    NotFolded L other ipa vm_size vm_count guard_bytes t ↔
      ∀ x : U64, x.toNat < 2 ^ 39 → s2_walk L other t L.s2_l1 x = none := by
  constructor
  · intro hn x hx
    by_contra hsome
    obtain ⟨k, hk, hs, -, -⟩ := hn.walks x hx (Option.isSome_iff_ne_none.mpr hsome)
    exact hs (slot_empty hzero hk)
  · intro hnone
    refine ⟨?_, ?_⟩
    · intro x hx hsome
      rw [hnone x hx] at hsome
      exact absurd hsome Bool.false_ne_true
    · intro k hk q hq
      rw [slotPaths_empty (slot_empty hzero hk)] at hq
      exact absurd hq List.not_mem_nil

/-- A build after a reset folds nothing exactly when no slot that runs ends beyond `2^39`. -/
theorem notFolded_iff_of_built (hs : vm_size ≠ 0)
    (ht : mapPages L.pools (slotPages ipa pa vm_size vm_count guard_bytes read write exec)
      (reset L.pools t₀) = some t) :
    NotFolded L other ipa vm_size vm_count guard_bytes t ↔
      ∀ k < vm_count.toNat, SlotRuns ipa vm_size guard_bytes k →
        pageRound (slotEnd ipa vm_size guard_bytes k) ≤ 2 ^ 39 := by
  constructor
  · intro hn k hk hruns
    exact slot_le_of_writes hs hk (Option.isSome_iff_exists.mpr ⟨t, ht⟩) hruns (hn.writes k hk)
  · intro hend
    refine ⟨?_, ?_⟩
    · intro x hx hsome
      obtain ⟨k, hk, hmem⟩ := (built_walk_isSome ht other hx).mp hsome
      obtain ⟨y, hy, hin, hpath⟩ := slot_writes_of_le hs (hend k hk) hmem
      exact ⟨k, hk, inExtent_of_path hx hy hpath hin⟩
    · intro k hk q hq
      exact slot_writes_of_le hs (hend k hk) hq

/-- When the builder returns, it has not folded a request onto other addresses exactly when every slot
whose loop maps something ends below `2^39` as a number. A build of no slots, or of empty ones, leaves
the tables as they were. -/
theorem s2_requests_not_folded_iff (other : U64 → BitVec 9 → U64)
    (h : s2_build_tables_identity L ipa pa vm_size vm_count guard_bytes read write exec t₀ = some t) :
    NotFolded L other ipa vm_size vm_count guard_bytes t ↔
      (vm_count = 0 ∨ vm_size = 0 → ∀ x : U64, x.toNat < 2 ^ 39 → s2_walk L other t₀ L.s2_l1 x = none) ∧
      (vm_size ≠ 0 → ∀ k < vm_count.toNat, SlotRuns ipa vm_size guard_bytes k →
        pageRound (slotEnd ipa vm_size guard_bytes k) ≤ 2 ^ 39) := by
  by_cases hzero : vm_count = 0 ∨ vm_size = 0
  · rw [s2_build_tables_identity, if_pos hzero, Option.some.injEq] at h
    subst h
    rw [notFolded_iff_of_empty hzero]
    constructor
    · intro hnone
      exact ⟨fun _ => hnone, fun hs k hk => absurd (slot_empty hzero hk) hs⟩
    · rintro ⟨hnone, -⟩
      exact hnone hzero
  · obtain ⟨hcount, hs⟩ := not_or.mp hzero
    rw [s2_build_eq L hcount hs] at h
    rw [notFolded_iff_of_built hs h]
    constructor
    · intro hend
      exact ⟨fun hz => absurd hz hzero, fun _ => hend⟩
    · rintro ⟨-, hend⟩
      exact hend hs

theorem s2_requests_not_folded_three : ∃ t,
    s2_build_tables_identity packedLayout 0x401fe000 0x801fe000 0x4800 3 0x2000 1 1 0
      S2Tables.cleared = some t ∧
    NotFolded packedLayout (fun _ _ => 0) 0x401fe000 0x4800 3 0x2000 t := by
  obtain ⟨t, ht⟩ := slotWindow_three.build_returns 1 1 0 packedLayout S2Tables.cleared
  have hbuild := (s2_build_eq packedLayout (by decide) (by decide) _).trans ht
  refine ⟨t, hbuild, (s2_requests_not_folded_iff _ hbuild).mpr ⟨fun hz => absurd hz (by decide), ?_⟩⟩
  intro _ k hk _
  revert k
  decide

/-- The slot at `2^39` is mapped at address 0. -/
theorem s2_request_folded : ∃ t,
    s2_build_tables_identity packedLayout 0x8000000000 0 0x1000 1 0 1 1 1 S2Tables.cleared = some t ∧
    (s2_walk packedLayout (fun _ _ => 0) t packedLayout.s2_l1 0).isSome ∧
    ¬ NotFolded packedLayout (fun _ _ => 0) 0x8000000000 0x1000 1 0 t := by
  have hreturns : (mapPages packedLayout.pools (slotPages 0x8000000000 0 0x1000 1 0 1 1 1)
      (reset packedLayout.pools S2Tables.cleared)).isSome := by
    rw [mapPages_isSome_iff]
    decide
  obtain ⟨t, ht⟩ := Option.isSome_iff_exists.mp hreturns
  have hwalk : (s2_walk packedLayout (fun _ _ => 0) t packedLayout.s2_l1 0).isSome :=
    (built_walk_isSome ht _ (by decide)).mpr ⟨0, by decide, by decide⟩
  refine ⟨t, (s2_build_eq packedLayout (by decide) (by decide) _).trans ht, hwalk, fun hn => ?_⟩
  obtain ⟨k, hk, -, hlo, -⟩ := hn.walks 0 (by decide) hwalk
  revert k
  decide

end Folding

/-! ## The guard between slots -/

section Guard

variable (L : S2Layout) (other : U64 → BitVec 9 → U64) (ipa vm_size : U64) (vm_count : U32)
  (guard_bytes : U64)

/-- The addresses of the pages that the call of `s2_map_identity_range` for slot `k` maps. -/
def slotAddrs (k : ℕ) : List U64 :=
  rangeAddrs (ipa + BitVec.ofNat 64 k * slotStride vm_size guard_bytes) (align_up vm_size S2_PAGE_SIZE)

/-- No slot end wraps around. -/
def NoWrap : Prop := ∀ k < vm_count.toNat, pageRound (slotEnd ipa vm_size guard_bytes k) < 2 ^ 64

/-- The rounded guard lies between the last page of a slot and the first page of the next one, and no page
belongs to two slots. Where all slots lie in the 39-bit space, nothing in between is mapped. -/
structure GuardHonoured (t : S2Tables) : Prop where
  gap : ∀ k, k + 1 < vm_count.toNat → ∀ y ∈ slotAddrs ipa vm_size guard_bytes k,
    ∀ z ∈ slotAddrs ipa vm_size guard_bytes (k + 1),
      y.toNat + 2 ^ 12 + pageRound guard_bytes.toNat ≤ z.toNat
  disjoint : ∀ j < vm_count.toNat, ∀ k < vm_count.toNat, j ≠ k →
    ∀ y ∈ slotAddrs ipa vm_size guard_bytes j, y ∉ slotAddrs ipa vm_size guard_bytes k
  unmapped : (∀ k < vm_count.toNat, pageRound (slotEnd ipa vm_size guard_bytes k) ≤ 2 ^ 39) →
    ∀ k, k + 1 < vm_count.toNat → ∀ x : U64, x.toNat < 2 ^ 39 →
      (∀ y ∈ slotAddrs ipa vm_size guard_bytes k, y.toNat + 2 ^ 12 ≤ x.toNat) →
      (∀ z ∈ slotAddrs ipa vm_size guard_bytes (k + 1), x.toNat < z.toNat) →
      s2_walk L other t L.s2_l1 x = none

variable {L other ipa vm_size vm_count guard_bytes} {pa : U64} {read write exec : U8} {t₀ t : S2Tables}
  {j k : ℕ}

theorem slotStart_succ : slotStart ipa vm_size guard_bytes (k + 1) =
    slotEnd ipa vm_size guard_bytes k + pageRound guard_bytes.toNat := by
  simp only [slotEnd, slotStart, slotStep, Nat.succ_mul]
  omega

/-- A later slot starts at least the guard behind the end of an earlier one. -/
theorem slotEnd_le_slotStart (hjk : j < k) :
    slotEnd ipa vm_size guard_bytes j + pageRound guard_bytes.toNat ≤
      slotStart ipa vm_size guard_bytes k := by
  rw [← slotStart_succ]
  exact Nat.add_le_add_left (Nat.mul_le_mul_right _ hjk) _

/-- The slots have the alignment of the first one. -/
theorem slotStart_mod : slotStart ipa vm_size guard_bytes k % 2 ^ 12 = ipa.toNat % 2 ^ 12 := by
  have hmod := slotStep_mul_mod vm_size guard_bytes k
  rw [slotStart]
  omega

theorem slotEnd_mod : slotEnd ipa vm_size guard_bytes k % 2 ^ 12 = ipa.toNat % 2 ^ 12 := by
  have hmod := pageRound_mod vm_size.toNat
  have hstart := @slotStart_mod ipa vm_size guard_bytes k
  rw [slotEnd]
  omega

theorem pageRound_of_aligned {n : ℕ} (hn : n % 2 ^ 12 = 0) : pageRound n = n := by
  simp only [pageRound]
  omega

/-- Without wrapping around, the pages of a slot are those of its extent. -/
theorem mem_slotAddrs (hs : vm_size ≠ 0) (hend : pageRound (slotEnd ipa vm_size guard_bytes k) < 2 ^ 64)
    {y : U64} : y ∈ slotAddrs ipa vm_size guard_bytes k ↔ y.toNat % 2 ^ 12 = 0 ∧
      slotStart ipa vm_size guard_bytes k / 2 ^ 12 * 2 ^ 12 ≤ y.toNat ∧
      y.toNat < pageRound (slotEnd ipa vm_size guard_bytes k) := by
  have hle := le_pageRound (slotEnd ipa vm_size guard_bytes k)
  have hstart : (ipa + BitVec.ofNat 64 k * slotStride vm_size guard_bytes).toNat =
      slotStart ipa vm_size guard_bytes k := by
    rw [slot_ipa_toNat]
    exact Nat.mod_eq_of_lt ((Nat.le_add_right _ _).trans hle |>.trans_lt hend)
  have hround : pageRound vm_size.toNat < 2 ^ 64 := (Nat.le_add_left _ _).trans hle |>.trans_lt hend
  have hsize := align_up_of_fits hround
  have hne := align_up_ne_zero hs hround
  rw [slotAddrs, mem_rangeAddrs (by rw [hstart, hsize]; exact fun _ => hend), hstart, hsize]
  simp only [hne, ne_eq, not_false_eq_true, true_and]
  rfl

/-- Every page number of the extent is that of a page. -/
theorem exists_slotAddr (hs : vm_size ≠ 0) (hend : pageRound (slotEnd ipa vm_size guard_bytes k) < 2 ^ 64)
    {n : ℕ} (hn : n % 2 ^ 12 = 0) (hlo : slotStart ipa vm_size guard_bytes k / 2 ^ 12 * 2 ^ 12 ≤ n)
    (hhi : n < pageRound (slotEnd ipa vm_size guard_bytes k)) :
    ∃ y ∈ slotAddrs ipa vm_size guard_bytes k, y.toNat = n := by
  have hy : (BitVec.ofNat 64 n).toNat = n := by
    rw [BitVec.toNat_ofNat]
    omega
  exact ⟨BitVec.ofNat 64 n, (mem_slotAddrs hs hend).mpr (by rw [hy]; exact ⟨hn, hlo, hhi⟩), hy⟩

/-- The first page of a slot. -/
theorem first_mem_slotAddrs (hs : vm_size ≠ 0)
    (hend : pageRound (slotEnd ipa vm_size guard_bytes k) < 2 ^ 64) :
    ∃ z ∈ slotAddrs ipa vm_size guard_bytes k,
      z.toNat = slotStart ipa vm_size guard_bytes k / 2 ^ 12 * 2 ^ 12 := by
  have hpos := le_pageRound_of_ne hs
  have hle := le_pageRound (slotEnd ipa vm_size guard_bytes k)
  have hlt : slotStart ipa vm_size guard_bytes k + 2 ^ 12 ≤ slotEnd ipa vm_size guard_bytes k :=
    Nat.add_le_add_left hpos _
  exact exists_slotAddr hs hend (Nat.mul_mod_left _ _) le_rfl (by omega)

/-- The last page of a slot. -/
theorem last_mem_slotAddrs (hs : vm_size ≠ 0)
    (hend : pageRound (slotEnd ipa vm_size guard_bytes k) < 2 ^ 64) :
    ∃ y ∈ slotAddrs ipa vm_size guard_bytes k,
      y.toNat + 2 ^ 12 = pageRound (slotEnd ipa vm_size guard_bytes k) := by
  have hpos := le_pageRound_of_ne hs
  have hle := le_pageRound (slotEnd ipa vm_size guard_bytes k)
  have hmod := pageRound_mod (slotEnd ipa vm_size guard_bytes k)
  have hlt : slotStart ipa vm_size guard_bytes k + 2 ^ 12 ≤ slotEnd ipa vm_size guard_bytes k :=
    Nat.add_le_add_left hpos _
  obtain ⟨y, hy, hlast⟩ := exists_slotAddr hs hend
    (n := pageRound (slotEnd ipa vm_size guard_bytes k) - 2 ^ 12) (by omega) (by omega) (by omega)
  exact ⟨y, hy, by omega⟩

/-- The gap that the first two slots leave is the whole guard only if they start on a page. -/
theorem aligned_of_gap (hs : vm_size ≠ 0) (hcount : 2 ≤ vm_count.toNat)
    (hwrap : NoWrap ipa vm_size vm_count guard_bytes)
    (h : GuardHonoured L other ipa vm_size vm_count guard_bytes t) : ipa.toNat % 2 ^ 12 = 0 := by
  obtain ⟨y, hy, hlast⟩ := last_mem_slotAddrs hs (hwrap 0 (by omega))
  obtain ⟨z, hz, hfirst⟩ := first_mem_slotAddrs hs (hwrap 1 (by omega))
  have hgap := h.gap 0 (by omega) y hy z hz
  have hmod := pageRound_mod guard_bytes.toNat
  have hend := @slotEnd_mod ipa vm_size guard_bytes 0
  rw [hlast, hfirst, show (1 : ℕ) = 0 + 1 from rfl, slotStart_succ] at hgap
  simp only [pageRound] at hgap hmod
  omega

/-! ### Slots that start on a page -/

section Aligned

variable (ha : ipa.toNat % 2 ^ 12 = 0)
include ha

theorem slotStart_of_aligned :
    slotStart ipa vm_size guard_bytes k / 2 ^ 12 * 2 ^ 12 = slotStart ipa vm_size guard_bytes k := by
  have hstart := (@slotStart_mod ipa vm_size guard_bytes k).trans ha
  omega

theorem slotEnd_of_aligned :
    pageRound (slotEnd ipa vm_size guard_bytes k) = slotEnd ipa vm_size guard_bytes k :=
  pageRound_of_aligned (slotEnd_mod.trans ha)

variable (hs : vm_size ≠ 0) (hwrap : NoWrap ipa vm_size vm_count guard_bytes)
include hs hwrap

theorem mem_slotAddrs_of_aligned (hk : k < vm_count.toNat) {y : U64} :
    y ∈ slotAddrs ipa vm_size guard_bytes k ↔ y.toNat % 2 ^ 12 = 0 ∧
      slotStart ipa vm_size guard_bytes k ≤ y.toNat ∧ y.toNat < slotEnd ipa vm_size guard_bytes k := by
  rw [mem_slotAddrs hs (hwrap k hk), slotStart_of_aligned ha, slotEnd_of_aligned ha]

theorem gap_of_aligned (hk : k + 1 < vm_count.toNat) {y z : U64}
    (hy : y ∈ slotAddrs ipa vm_size guard_bytes k) (hz : z ∈ slotAddrs ipa vm_size guard_bytes (k + 1)) :
    y.toNat + 2 ^ 12 + pageRound guard_bytes.toNat ≤ z.toNat := by
  obtain ⟨hpage, -, hhi⟩ := (mem_slotAddrs_of_aligned ha hs hwrap (by omega)).mp hy
  obtain ⟨-, hlo, -⟩ := (mem_slotAddrs_of_aligned ha hs hwrap hk).mp hz
  have hend := (@slotEnd_mod ipa vm_size guard_bytes k).trans ha
  rw [slotStart_succ] at hlo
  omega

theorem disjoint_of_aligned (hj : j < vm_count.toNat) (hk : k < vm_count.toNat) (hne : j ≠ k) {y : U64}
    (hy : y ∈ slotAddrs ipa vm_size guard_bytes j) : y ∉ slotAddrs ipa vm_size guard_bytes k := by
  intro hy'
  obtain ⟨-, hlo, hhi⟩ := (mem_slotAddrs_of_aligned ha hs hwrap hj).mp hy
  obtain ⟨-, hlo', hhi'⟩ := (mem_slotAddrs_of_aligned ha hs hwrap hk).mp hy'
  rcases Nat.lt_or_gt_of_ne hne with hlt | hlt
  · have hle := @slotEnd_le_slotStart ipa vm_size guard_bytes j k hlt
    omega
  · have hle := @slotEnd_le_slotStart ipa vm_size guard_bytes k j hlt
    omega

/-- An address behind the pages of one slot and before those of the next lies in no slot. -/
theorem not_inExtent_of_aligned (hk : k + 1 < vm_count.toNat) {x : ℕ}
    (habove : ∀ y ∈ slotAddrs ipa vm_size guard_bytes k, y.toNat + 2 ^ 12 ≤ x)
    (hbelow : ∀ z ∈ slotAddrs ipa vm_size guard_bytes (k + 1), x < z.toNat) :
    ¬ InExtent ipa vm_size guard_bytes j x := by
  rintro ⟨-, hlo, hhi⟩
  rw [slotStart_of_aligned ha] at hlo
  rw [slotEnd_of_aligned ha] at hhi
  rcases Nat.lt_or_ge k j with hlt | hge
  · obtain ⟨z, hz, hfirst⟩ := first_mem_slotAddrs hs (hwrap (k + 1) hk)
    have hz' := hbelow z hz
    have hle : slotStart ipa vm_size guard_bytes (k + 1) ≤ slotStart ipa vm_size guard_bytes j :=
      Nat.add_le_add_left (Nat.mul_le_mul_right _ hlt) _
    omega
  · obtain ⟨y, hy, hlast⟩ := last_mem_slotAddrs hs (hwrap k (by omega))
    have hy' := habove y hy
    have hle : slotEnd ipa vm_size guard_bytes j ≤ slotEnd ipa vm_size guard_bytes k :=
      Nat.add_le_add_right (Nat.add_le_add_left (Nat.mul_le_mul_right _ hge) _) _
    rw [slotEnd_of_aligned ha] at hlast
    omega

/-- The builder keeps the guard free. -/
theorem guard_of_aligned
    (ht : mapPages L.pools (slotPages ipa pa vm_size vm_count guard_bytes read write exec)
      (reset L.pools t₀) = some t) : GuardHonoured L other ipa vm_size vm_count guard_bytes t where
  gap _ hk _ hy _ hz := gap_of_aligned ha hs hwrap hk hy hz
  disjoint _ hj _ hk hne _ hy := disjoint_of_aligned ha hs hwrap hj hk hne hy
  unmapped := by
    intro hlow k hk x hx habove hbelow
    by_contra hsome
    obtain ⟨j, hj, hpath⟩ := (built_walk_isSome ht other hx).mp (Option.isSome_iff_ne_none.mpr hsome)
    exact not_inExtent_of_aligned ha hs hwrap hk habove hbelow
      ((mem_slotPaths_low hs (hlow j hj) hx).mp hpath)

end Aligned

/-- The requested guard is honoured exactly when the slots start on a page: the size is rounded before the
range, so the range of an unaligned slot has one page more than the stride allows for. -/
theorem guard_honoured_iff (other : U64 → BitVec 9 → U64) (hs : vm_size ≠ 0)
    (hcount : 2 ≤ vm_count.toNat) (hwrap : NoWrap ipa vm_size vm_count guard_bytes)
    (h : s2_build_tables_identity L ipa pa vm_size vm_count guard_bytes read write exec t₀ = some t) :
    GuardHonoured L other ipa vm_size vm_count guard_bytes t ↔ ipa.toNat % 2 ^ 12 = 0 := by
  have hne : vm_count ≠ 0 := fun hz => absurd hcount (by rw [hz]; decide)
  rw [s2_build_eq L hne hs] at h
  exact ⟨aligned_of_gap hs hcount hwrap, fun ha => guard_of_aligned ha hs hwrap h⟩

theorem guard_honoured_three : ∃ t,
    s2_build_tables_identity packedLayout 0x401fe000 0x801fe000 0x4800 3 0x2000 1 1 0
      S2Tables.cleared = some t ∧
    GuardHonoured packedLayout (fun _ _ => 0) 0x401fe000 0x4800 3 0x2000 t := by
  obtain ⟨t, ht⟩ := slotWindow_three.build_returns 1 1 0 packedLayout S2Tables.cleared
  have hbuild := (s2_build_eq packedLayout (by decide) (by decide) _).trans ht
  have hwrap : NoWrap 0x401fe000 0x4800 3 0x2000 := by
    unfold NoWrap
    decide
  exact ⟨t, hbuild, (guard_honoured_iff _ (by decide) (by decide) hwrap hbuild).mpr (by decide)⟩

/-- Two slots of one page in the middle of a page: of the two guard pages only one is free. -/
theorem guard_shortened : ∃ t,
    s2_build_tables_identity packedLayout 0x40000800 0x40000800 0x1000 2 0x2000 1 1 1
      S2Tables.cleared = some t ∧
    ¬ GuardHonoured packedLayout (fun _ _ => 0) 0x40000800 0x1000 2 0x2000 t := by
  have hreturns : (mapPages packedLayout.pools
      (slotPages 0x40000800 0x40000800 0x1000 2 0x2000 1 1 1)
      (reset packedLayout.pools S2Tables.cleared)).isSome := by
    rw [mapPages_isSome_iff]
    decide
  obtain ⟨t, ht⟩ := Option.isSome_iff_exists.mp hreturns
  refine ⟨t, (s2_build_eq packedLayout (by decide) (by decide) _).trans ht, fun h => ?_⟩
  have hgap := h.gap 0 (by decide) 0x40001000 (by decide) 0x40003000 (by decide)
  exact absurd hgap (by decide)

end Guard

end Schism
