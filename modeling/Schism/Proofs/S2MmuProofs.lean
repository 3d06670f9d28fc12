import Schism.Proofs.BitsProofs
import Schism.Proofs.PageTablesProofs
import Schism.S2Mmu

/-!
# What the stage-2 builder builds

`s2_build_eq` reads the nested loops of the builder as one list of pages (`slotPages`), for all 64-bit
arguments; `s2_walk_eq` reads the hardware walk as the builder's contents. What is mapped and whether
the pools suffice are then facts about the list.
-/

namespace Schism

open Bits PageTables

/-! ## Addresses and descriptors -/

theorem toNat_and_oaMask (a : U64) : (a &&& oaMask).toNat = a.toNat / 2 ^ 12 % 2 ^ 36 * 2 ^ 12 := by
  rw [BitVec.toNat_and]
  exact and_ones_mul a.toNat 12 36

/-- A table address is not changed by the masks. -/
theorem and_oaMask_of_aligned {a : U64} (ha : a.toNat % 0x1000 = 0) (hb : a.toNat < 2 ^ 48) :
    a &&& oaMask = a := by
  apply BitVec.eq_of_toNat_eq
  rw [toNat_and_oaMask]
  omega

/-- The page of an address has no bits below it. -/
theorem oaMask_shift (a : U64) : (a &&& oaMask) >>> 12 <<< 12 = a &&& oaMask := by
  apply BitVec.eq_of_toNat_eq
  rw [BitVec.toNat_shiftLeft, BitVec.toNat_ushiftRight, Nat.shiftLeft_eq, Nat.shiftRight_eq_div_pow,
    toNat_and_oaMask]
  omega

theorem PA_48_MASK_and_S2_PAGE_MASK : PA_48_MASK &&& S2_PAGE_MASK = oaMask := by decide

theorem align_down_toNat (v : U64) : (align_down v S2_PAGE_SIZE).toNat = v.toNat / 2 ^ 12 * 2 ^ 12 := by
  have h : ~~~(S2_PAGE_SIZE - 1) = BitVec.ofNat 64 ((2 ^ 52 - 1) * 2 ^ 12) := by decide
  have := v.isLt
  rw [align_down, h, BitVec.toNat_and, BitVec.toNat_ofNat,
    show (2 ^ 52 - 1) * 2 ^ 12 % 2 ^ 64 = (2 ^ 52 - 1) * 2 ^ 12 by decide, and_ones_mul]
  omega

theorem align_up_eq (v : U64) : align_up v S2_PAGE_SIZE = align_down (v + 0xfff) S2_PAGE_SIZE := by
  have h : v + S2_PAGE_SIZE - 1 = v + 0xfff := by
    rw [BitVec.sub_eq_add_neg, BitVec.add_assoc]
    rfl
  rw [align_up, align_down, h]

theorem align_up_toNat (v : U64) :
    (align_up v S2_PAGE_SIZE).toNat = (v.toNat + 0xfff) % 2 ^ 64 / 2 ^ 12 * 2 ^ 12 := by
  rw [align_up_eq, align_down_toNat, BitVec.toNat_add]
  rfl

theorem align_down_mod (v : U64) : (align_down v S2_PAGE_SIZE).toNat % 2 ^ 12 = 0 := by
  rw [align_down_toNat]
  exact Nat.mul_mod_left _ _

theorem align_up_mod (v : U64) : (align_up v S2_PAGE_SIZE).toNat % 2 ^ 12 = 0 := by
  rw [align_up_toNat]
  exact Nat.mul_mod_left _ _

theorem lvlIndex_toNat (x : U64) (shift : ℕ) :
    (S2.lvlIndex x shift).toNat = x.toNat / 2 ^ shift % 2 ^ 9 := by
  have h : ((x >>> shift) &&& LVL_INDEX_MASK).toNat = x.toNat / 2 ^ shift % 2 ^ 9 :=
    toNat_field x shift 9 (by decide)
  rw [S2.lvlIndex, BitVec.toNat_setWidth, h, Nat.mod_mod]

/-- Two addresses of the 39-bit space have the same path exactly when they lie in the same page. -/
theorem s2Path_eq_iff {x y : U64} (hx : x.toNat < 2 ^ 39) (hy : y.toNat < 2 ^ 39) :
    s2Path x = s2Path y ↔ x.toNat / 2 ^ 12 = y.toNat / 2 ^ 12 := by
  simp only [s2Path, Prod.mk.injEq, ← BitVec.toNat_inj, lvlIndex_toNat]
  omega

/-- Every path is that of an address of the 39-bit space. -/
theorem exists_s2Path (q : Path (BitVec 9)) : ∃ x : U64, x.toNat < 2 ^ 39 ∧ s2Path x = q := by
  obtain ⟨i, j, l⟩ := q
  have hi := i.isLt
  have hj := j.isLt
  have hl := l.isLt
  have hx : (BitVec.ofNat 64 (i.toNat * 2 ^ 30 + j.toNat * 2 ^ 21 + l.toNat * 2 ^ 12)).toNat =
      i.toNat * 2 ^ 30 + j.toNat * 2 ^ 21 + l.toNat * 2 ^ 12 := by
    rw [BitVec.toNat_ofNat]
    omega
  refine ⟨BitVec.ofNat 64 (i.toNat * 2 ^ 30 + j.toNat * 2 ^ 21 + l.toNat * 2 ^ 12), by omega, ?_⟩
  simp only [s2Path, Prod.mk.injEq, ← BitVec.toNat_inj, lvlIndex_toNat, hx]
  omega

/-! ## Counting regions -/

section Regions

variable {ps : List (Path (BitVec 9) × U64)} {shift : ℕ} {F : Finset ℕ}

/-- A key of the paths that is a one-to-one image of the region number takes as many values as there
are regions touched. -/
theorem card_keys {κ : Type*} [DecidableEq κ] (key : Path (BitVec 9) → κ) (f : ℕ → κ)
    (hkey : ∀ x : U64, x.toNat < 2 ^ 39 → key (s2Path x) = f (x.toNat / 2 ^ shift))
    (hinj : ∀ a b, a < 2 ^ 39 → b < 2 ^ 39 → f (a / 2 ^ shift) = f (b / 2 ^ shift) →
      a / 2 ^ shift = b / 2 ^ shift)
    (hF : ∀ r, r ∈ F ↔ ∃ x : U64, x.toNat < 2 ^ 39 ∧ s2Path x ∈ ps.map Prod.fst ∧
      x.toNat / 2 ^ shift = r) :
    (ps.map fun p => key p.1).toFinset.card = F.card := by
  have himage : (ps.map fun p => key p.1).toFinset = F.image f := by
    ext q
    simp only [List.mem_toFinset, List.mem_map, Finset.mem_image]
    constructor
    · rintro ⟨p, hp, rfl⟩
      obtain ⟨x, hx, hpath⟩ := exists_s2Path p.1
      refine ⟨x.toNat / 2 ^ shift, (hF _).mpr ⟨x, hx, ?_, rfl⟩, ?_⟩
      · rw [hpath]
        exact List.mem_map_of_mem hp
      · rw [← hpath, hkey x hx]
    · rintro ⟨r, hr, rfl⟩
      obtain ⟨x, hx, hmem, rfl⟩ := (hF r).mp hr
      obtain ⟨p, hp, hpath⟩ := List.mem_map.mp hmem
      exact ⟨p, hp, by rw [hpath, hkey x hx]⟩
  rw [himage, Finset.card_image_of_injOn]
  intro r hr r' hr' h
  obtain ⟨x, hx, -, rfl⟩ := (hF r).mp hr
  obtain ⟨x', hx', -, rfl⟩ := (hF r').mp hr'
  exact hinj _ _ hx hx' h

/-- A sequence of pages needs one second-level table for each GB it touches. -/
theorem roots_card (hF : ∀ r, r ∈ F ↔ ∃ x : U64, x.toNat < 2 ^ 39 ∧ s2Path x ∈ ps.map Prod.fst ∧
    x.toNat / 2 ^ 30 = r) : (roots ps).card = F.card := by
  refine card_keys (fun q => q.1) (BitVec.ofNat 9) (?_) (?_) hF
  · intro x _
    apply BitVec.eq_of_toNat_eq
    rw [BitVec.toNat_ofNat]
    exact lvlIndex_toNat x 30
  · intro a b ha hb h
    rw [← BitVec.toNat_inj, BitVec.toNat_ofNat, BitVec.toNat_ofNat] at h
    omega

/-- A sequence of pages needs one third-level table for each 2 MB region it touches. -/
theorem branches_card (hF : ∀ r, r ∈ F ↔ ∃ x : U64, x.toNat < 2 ^ 39 ∧ s2Path x ∈ ps.map Prod.fst ∧
    x.toNat / 2 ^ 21 = r) : (branches ps).card = F.card := by
  refine card_keys (fun q => (q.1, q.2.1)) (fun r => (BitVec.ofNat 9 (r / 2 ^ 9), BitVec.ofNat 9 r))
    (fun x _ => Prod.ext ?_ ?_) (?_) hF
  · apply BitVec.eq_of_toNat_eq
    rw [BitVec.toNat_ofNat, Nat.div_div_eq_div_mul, ← pow_add]
    exact lvlIndex_toNat x 30
  · apply BitVec.eq_of_toNat_eq
    rw [BitVec.toNat_ofNat]
    exact lvlIndex_toNat x 21
  · intro a b ha hb h
    simp only [Prod.mk.injEq, ← BitVec.toNat_inj, BitVec.toNat_ofNat] at h
    omega

end Regions

/-! ## The hardware's view of the tables -/

/-- A root table and two arrays of tables that do not overlap: no two tables share an address. -/
theorem arrays_distinct {c : Pools U64 U64} {l1 l2 l3 : ℕ} (hroot : c.root.toNat = l1)
    (h2 : ∀ k < c.n2, (c.addr2 k).toNat = l2 + 0x2000 * k)
    (h3 : ∀ m < c.n3, (c.addr3 m).toNat = l3 + 0x1000 * m)
    (h12 : l1 + 0x1000 ≤ l2 ∨ l2 + 0x2000 * c.n2 ≤ l1)
    (h13 : l1 + 0x1000 ≤ l3 ∨ l3 + 0x1000 * c.n3 ≤ l1)
    (h23 : l2 + 0x2000 * c.n2 ≤ l3 ∨ l3 + 0x1000 * c.n3 ≤ l2) : c.Distinct := by
  constructor
  · intro k k' hk hk' h
    rw [← BitVec.toNat_inj, h2 k hk, h2 k' hk'] at h
    omega
  · intro m m' hm hm' h
    rw [← BitVec.toNat_inj, h3 m hm, h3 m' hm'] at h
    omega
  · intro k hk h
    rw [← BitVec.toNat_inj, h2 k hk, hroot] at h
    omega
  · intro m hm h
    rw [← BitVec.toNat_inj, h3 m hm, hroot] at h
    omega
  · intro k m hk hm h
    rw [← BitVec.toNat_inj, h2 k hk, h3 m hm] at h
    omega

/-- An element of an array of tables below `2^48`. -/
theorem element_toNat {pool : U64} {n size k : ℕ} (hk : k < n) (hb : pool.toNat + size * n ≤ 2 ^ 48) :
    (pool + BitVec.ofNat 64 (size * k)).toNat = pool.toNat + size * k := by
  have hle : size * k ≤ size * n := Nat.mul_le_mul_left size hk.le
  rw [BitVec.toNat_add, BitVec.toNat_ofNat]
  omega

/-- The elements of an aligned array of whole pages are aligned. -/
theorem element_aligned {pool : U64} {n size k : ℕ} (hk : k < n)
    (hb : pool.toNat + size * n ≤ 2 ^ 48) (ha : pool.toNat % 0x1000 = 0) (hsize : size % 0x1000 = 0)
    (hpos : 0 < size) : (pool + BitVec.ofNat 64 (size * k)).toNat % 0x1000 = 0 ∧
      (pool + BitVec.ofNat 64 (size * k)).toNat < 2 ^ 48 := by
  have hlt : size * k < size * n := Nat.mul_lt_mul_of_pos_left hk hpos
  have hmod : size * k % 0x1000 = 0 := by
    rw [Nat.mul_mod, hsize, Nat.zero_mul, Nat.zero_mod]
  rw [element_toNat hk hb]
  omega

namespace S2Layout

variable (L : S2Layout)

theorem addr2_toNat {k : ℕ} (hk : k < S2_MAX_L2_TABLES) :
    (L.pools.addr2 k).toNat = L.s2_l2_pool.toNat + 0x2000 * k := element_toNat hk L.l2_below

theorem addr3_toNat {m : ℕ} (hm : m < S2_MAX_L3_TABLES) :
    (L.pools.addr3 m).toNat = L.s2_l3_pool.toNat + 0x1000 * m := element_toNat hm L.l3_below

theorem pools_distinct : L.pools.Distinct :=
  arrays_distinct rfl (fun _ => L.addr2_toNat) (fun _ => L.addr3_toNat) L.l1_l2 L.l1_l3 L.l2_l3

end S2Layout

theorem s2_decode_zero (level : ℕ) : s2_decode level 0 = .invalid := by
  simp [s2_decode]

/-- A table descriptor leads to the table it was made for. -/
theorem s2_decode_table {level : ℕ} (hl : level ≠ 3) {a : U64} (ha : a.toNat % 0x1000 = 0)
    (hb : a.toNat < 2 ^ 48) : s2_decode level (a ||| 0x3) = .table a := by
  have hmask : (a ||| 0x3) &&& oaMask = a := by
    rw [BitVec.and_or_distrib_right, and_oaMask_of_aligned ha hb]
    exact BitVec.or_zero
  have h0 : (a ||| 0x3).getLsbD 0 = true := by simp
  have h1 : (a ||| 0x3).getLsbD 1 = true := by simp
  simp only [s2_decode, hl, h0, h1, hmask, if_true, if_false, Bool.true_eq_false]

/-- The walk through tables at aligned addresses below `2^48`, whose table descriptors are the address
with the type bits. -/
theorem walk_s2_decode_eq {c : Pools U64 U64} {t : Tables (BitVec 9) U64} (hw : Wf c t)
    (hc : c.Distinct) (hempty : c.empty = 0)
    (hlink : ∀ a : U64, a.toNat % 0x1000 = 0 → a.toNat < 2 ^ 48 → c.link a = a ||| 0x3)
    (h2 : ∀ k < c.n2, (c.addr2 k).toNat % 0x1000 = 0 ∧ (c.addr2 k).toNat < 2 ^ 48)
    (h3 : ∀ m < c.n3, (c.addr3 m).toNat % 0x1000 = 0 ∧ (c.addr3 m).toNat < 2 ^ 48)
    (other : U64 → BitVec 9 → U64) (p : Path (BitVec 9)) :
    walk s2_decode (t.read c other) c.root p = (s2_decode 3 (t.entry c p)).page := by
  refine walk_eq hw hc (fun n => by rw [hempty, s2_decode_zero]) ?_ ?_ p
  · intro k hk
    rw [hlink _ (h2 k hk).1 (h2 k hk).2, s2_decode_table (by decide) (h2 k hk).1 (h2 k hk).2]
  · intro m hm
    rw [hlink _ (h3 m hm).1 (h3 m hm).2, s2_decode_table (by decide) (h3 m hm).1 (h3 m hm).2]

namespace S2Layout

variable (L : S2Layout)

theorem link_eq {a : U64} (ha : a.toNat % 0x1000 = 0) (hb : a.toNat < 2 ^ 48) :
    L.pools.link a = a ||| 0x3 := by
  rw [S2Layout.pools]
  simp only
  rw [BitVec.and_assoc, PA_48_MASK_and_S2_PAGE_MASK, and_oaMask_of_aligned ha hb]
  rfl

theorem addr2_aligned {k : ℕ} (hk : k < S2_MAX_L2_TABLES) :
    (L.pools.addr2 k).toNat % 0x1000 = 0 ∧ (L.pools.addr2 k).toNat < 2 ^ 48 :=
  element_aligned hk L.l2_below L.l2_aligned rfl (by decide)

theorem addr3_aligned {m : ℕ} (hm : m < S2_MAX_L3_TABLES) :
    (L.pools.addr3 m).toNat % 0x1000 = 0 ∧ (L.pools.addr3 m).toNat < 2 ^ 48 :=
  element_aligned hm L.l3_below L.l3_aligned rfl (by decide)

end S2Layout

/-- The walk from the root of the layout finds the builder's contents. -/
theorem s2_walk_eq {L : S2Layout} {t : S2Tables} (hw : Wf L.pools t) {other : U64 → BitVec 9 → U64}
    {vttbr : U64} (hv : vttbr &&& oaMask = L.s2_l1) {x : U64} (hx : x.toNat < 2 ^ 39) :
    s2_walk L other t vttbr x =
      ((s2_decode 3 (t.entry L.pools (s2Path x))).page).map (·.translate x) := by
  have hwalk : walk s2_decode (t.read L.pools other) L.s2_l1 (s2Path x) = _ :=
    walk_s2_decode_eq hw L.pools_distinct rfl (fun _ => L.link_eq) (fun _ => L.addr2_aligned)
      (fun _ => L.addr3_aligned) other (s2Path x)
  rw [s2_walk, if_neg (by omega), hv, hwalk]

/-! ## Page descriptors -/

section Descriptor

variable (pa : U64) {flags : U64}

/-- The bits of a descriptor outside its address field are its flags. -/
theorem desc_getLsbD {i : ℕ} (hi : oaMask.getLsbD i = false) :
    ((pa &&& oaMask) ||| flags).getLsbD i = flags.getLsbD i := by
  rw [BitVec.getLsbD_or, BitVec.getLsbD_and, hi, Bool.and_false, Bool.false_or]

theorem desc_and_oaMask (hf : flags &&& oaMask = 0) :
    ((pa &&& oaMask) ||| flags) &&& oaMask = pa &&& oaMask := by
  rw [BitVec.and_or_distrib_right, hf, BitVec.and_assoc, BitVec.and_self]
  exact BitVec.or_zero

theorem s2_decode_page {desc : U64} (h0 : desc.getLsbD 0 = true) (h1 : desc.getLsbD 1 = true)
    (haf : desc.getLsbD 10 = true) : s2_decode 3 desc = .leaf ⟨desc, 12⟩ := by
  simp only [s2_decode, h0, h1, haf, if_true, if_false, Bool.true_eq_false]

end Descriptor

namespace S2

/-- The bits of a page descriptor outside its address field. -/
def pageFlags (read write exec : Bool) : U64 :=
  S2_PAGE ||| S2_AF ||| S2_SH_INNER ||| S2_MEMATTR S2_ATTRIDX_NORMAL |||
    (if read then S2AP_R else 0) ||| (if write then S2AP_W else 0) ||| (if exec then 0 else S2_XN)

theorem pageFlags_bits (read write exec : Bool) :
    pageFlags read write exec &&& oaMask = 0 ∧ (pageFlags read write exec).getLsbD 0 = true ∧
      (pageFlags read write exec).getLsbD 1 = true ∧ (pageFlags read write exec).getLsbD 10 = true ∧
      (pageFlags read write exec).getLsbD 6 = read ∧ (pageFlags read write exec).getLsbD 7 = write ∧
      (pageFlags read write exec).getLsbD 54 = !exec := by
  revert read write exec
  decide

variable (pa : U64) (read write exec : U8)

theorem page_desc_eq : page_desc pa read write exec =
    (pa &&& oaMask) ||| pageFlags (read != 0) (write != 0) (exec != 0) := by
  have hzero : ∀ v : U64, v ||| 0 = v := fun _ => BitVec.or_zero
  simp only [page_desc, pageFlags, PA_48_MASK_and_S2_PAGE_MASK, bne_iff_ne]
  by_cases hx : exec = 0
  · simp only [hx, if_true, ne_eq, not_true_eq_false, if_false, BitVec.or_assoc]
  · simp only [hx, if_false, ne_eq, not_false_eq_true, if_true, hzero, BitVec.or_assoc]

theorem page_desc_and_oaMask : page_desc pa read write exec &&& oaMask = pa &&& oaMask := by
  rw [page_desc_eq, desc_and_oaMask pa (pageFlags_bits _ _ _).1]

/-- A page descriptor is valid and accessible, whatever it maps. -/
theorem s2_decode_page_desc :
    s2_decode 3 (page_desc pa read write exec) = .leaf ⟨page_desc pa read write exec, 12⟩ := by
  obtain ⟨-, h0, h1, haf, -, -, -⟩ := pageFlags_bits (read != 0) (write != 0) (exec != 0)
  rw [← desc_getLsbD pa rfl, ← page_desc_eq] at h0 h1 haf
  exact s2_decode_page h0 h1 haf

/-- What a page descriptor grants. -/
theorem page_desc_translate (x : U64) :
    (S2Leaf.mk (page_desc pa read write exec) 12).translate x =
      { pa := (pa &&& oaMask) ||| (x &&& 0xfff)
        read := read != 0
        write := write != 0
        exec := exec != 0 } := by
  obtain ⟨-, -, -, -, hr, hw, hx⟩ := pageFlags_bits (read != 0) (write != 0) (exec != 0)
  rw [← desc_getLsbD pa rfl, ← page_desc_eq] at hr hw hx
  simp only [S2Leaf.translate, page_desc_and_oaMask, hr, hw, hx, Bool.not_not, oaMask_shift]
  rfl

/-! ## The loops as lists of pages -/

/-- The number of pages that the rounded range of `size` bytes at `ipa_start` spans; none when its end
has wrapped around. -/
def pageCount (ipa_start size : U64) : ℕ :=
  if size = 0 then 0 else
  ((align_up (ipa_start + size) S2_PAGE_SIZE).toNat -
    (align_down ipa_start S2_PAGE_SIZE).toNat) / 2 ^ 12

/-- The pages that `s2_map_identity_range` writes, in order. -/
def rangePages (ipa_start pa_start size : U64) (read write exec : U8) :
    List (Path (BitVec 9) × U64) :=
  let map_start := align_down ipa_start S2_PAGE_SIZE
  let pa := pa_start - (ipa_start - map_start)
  (List.range (pageCount ipa_start size)).map fun i =>
    (s2Path (map_start + BitVec.ofNat 64 (i * 2 ^ 12)),
      page_desc (pa + BitVec.ofNat 64 (i * 2 ^ 12)) read write exec)

variable {read write exec}

theorem s2_map_page_eq (L : S2Layout) (ipa pa : U64) (t : S2Tables) :
    s2_map_page L ipa pa read write exec t =
      mapPage L.pools (s2Path ipa) (page_desc pa read write exec) t := rfl

/-- A loop over the pages from `start` to `stop` writes each of them once, in order; it writes nothing
when `stop` is below `start`. -/
theorem pageLoop_eq (c : Pools U64 U64) (desc : U64 → U64) {start stop : U64}
    (hstart : start.toNat % 2 ^ 12 = 0) (hstop : stop.toNat % 2 ^ 12 = 0)
    (t : Tables (BitVec 9) U64) :
    strideLoop (fun cur t => mapPage c (s2Path cur) (desc cur) t) S2_PAGE_SIZE stop (2 ^ 52 + 1)
        start t =
      mapPages c ((List.range ((stop.toNat - start.toNat) / 2 ^ 12)).map fun i =>
        (s2Path (start + BitVec.ofNat 64 (i * 2 ^ 12)),
          desc (start + BitVec.ofNat 64 (i * 2 ^ 12)))) t := by
  have hlt := stop.isLt
  have hstride : S2_PAGE_SIZE.toNat = 2 ^ 12 := rfl
  rw [mapPages, List.foldlM_map]
  by_cases hle : start.toNat ≤ stop.toNat
  · rw [strideLoop_eq_foldlM (n := (stop.toNat - start.toNat) / 2 ^ 12) (by decide)
      (by rw [hstride]; omega) (by omega), hstride]
  · have hcond : ¬ start < stop := by rw [BitVec.lt_def]; omega
    rw [show (stop.toNat - start.toNat) / 2 ^ 12 = 0 by omega, strideLoop, if_neg hcond]
    rfl

theorem s2_map_identity_range_eq (L : S2Layout) (ipa_start pa_start size : U64) (t : S2Tables) :
    s2_map_identity_range L ipa_start pa_start size read write exec t =
      mapPages L.pools (rangePages ipa_start pa_start size read write exec) t := by
  unfold s2_map_identity_range rangePages pageCount
  by_cases hsize : size = 0
  · simp only [hsize, if_true]
    rfl
  simp only [if_neg hsize, s2_map_page_eq]
  rw [pageLoop_eq L.pools (fun cur => page_desc
    (pa_start - (ipa_start - align_down ipa_start S2_PAGE_SIZE) +
      (cur - align_down ipa_start S2_PAGE_SIZE)) read write exec) (align_down_mod _) (align_up_mod _)]
  simp only [add_sub_cancel_left]

variable (read write exec)

/-- The distance between two slots, and the rounded size of one. -/
def slotStride (vm_size guard_bytes : U64) : U64 :=
  align_up vm_size S2_PAGE_SIZE + align_up guard_bytes S2_PAGE_SIZE

/-- The pages of all slots, in the order in which `s2_build_tables_identity` writes them. -/
def slotPages (ipa pa vm_size : U64) (vm_count : U32) (guard_bytes : U64) (read write exec : U8) :
    List (Path (BitVec 9) × U64) :=
  (List.range vm_count.toNat).flatMap fun vm =>
    rangePages (ipa + BitVec.ofNat 64 vm * slotStride vm_size guard_bytes)
      (pa + BitVec.ofNat 64 vm * slotStride vm_size guard_bytes) (align_up vm_size S2_PAGE_SIZE)
      read write exec

variable {read write exec}

/-- For all arguments the builder writes the pages of its slots after a reset. -/
theorem s2_build_eq (L : S2Layout) {ipa pa vm_size guard_bytes : U64} {vm_count : U32}
    (hcount : vm_count ≠ 0) (hsize : vm_size ≠ 0) (t : S2Tables) :
    s2_build_tables_identity L ipa pa vm_size vm_count guard_bytes read write exec t =
      mapPages L.pools (slotPages ipa pa vm_size vm_count guard_bytes read write exec)
        (reset L.pools t) := by
  rw [s2_build_tables_identity, if_neg (not_or.mpr ⟨hcount, hsize⟩), slotPages, mapPages_flatMap]
  simp only [s2_map_identity_range_eq]
  rfl

end S2

end Schism
