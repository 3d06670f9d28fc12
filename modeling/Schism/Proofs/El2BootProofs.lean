import Schism.Proofs.El2MmuProofs

/-!
# EL2's boot mapping

The six calls of `el2_main` over the sections of the image. `boot_walk` reads the walk of EL2 as a
table of address intervals (`Sections.bootMap`), for all section sizes. An image whose mapping was built
ends in the 39-bit space (`stack_top_of_built`).
-/

namespace Schism

open PageTables

/-! ## The sections -/

theorem le_ALIGN (n : ℕ) : n ≤ ALIGN n := by
  simp only [ALIGN]
  omega

theorem ALIGN_mod (n : ℕ) : ALIGN n % 0x1000 = 0 := Nat.mul_mod_left _ _

namespace Sections

variable (z : Sections)

theorem stack_top_mod : z.stack_top % 0x1000 = 0 := by
  have hguard := ALIGN_mod z.bss_end
  simp only [stack_top, stack_bottom, stack_guard]
  omega

/-- The sections follow each other, with a guard page after the rounded end of each of the first
four. -/
theorem order :
    (text_start = 0x40000000 ∧ text_start ≤ z.text_end ∧ z.text_end ≤ ALIGN z.text_end) ∧
    (z.rodata_start = ALIGN z.text_end + 0x1000 ∧ z.rodata_start ≤ z.rodata_end ∧
      z.rodata_end ≤ ALIGN z.rodata_end) ∧
    (z.data_start = ALIGN z.rodata_end + 0x1000 ∧ z.data_start ≤ z.data_end ∧
      z.data_end ≤ ALIGN z.data_end) ∧
    (z.bss_start = ALIGN z.data_end + 0x1000 ∧ z.bss_start ≤ z.bss_end ∧ z.bss_end ≤ ALIGN z.bss_end) ∧
    z.stack_guard = ALIGN z.bss_end ∧ z.stack_bottom = z.stack_guard + 0x1000 ∧
      z.stack_top = z.stack_bottom + 0x8000 ∧ ALIGN z.stack_top = z.stack_top := by
  have hstack := z.stack_top_mod
  refine ⟨⟨rfl, Nat.le_add_right _ _, le_ALIGN _⟩, ⟨rfl, Nat.le_add_right _ _, le_ALIGN _⟩,
    ⟨rfl, Nat.le_add_right _ _, le_ALIGN _⟩, ⟨rfl, Nat.le_add_right _ _, le_ALIGN _⟩, rfl, rfl, rfl, ?_⟩
  rw [ALIGN]
  omega

/-- The guard pages between the sections and below the stack. -/
def InGuard (x : ℕ) : Prop :=
  (ALIGN z.text_end ≤ x ∧ x < z.rodata_start) ∨ (ALIGN z.rodata_end ≤ x ∧ x < z.data_start) ∨
    (ALIGN z.data_end ≤ x ∧ x < z.bss_start) ∨ (z.stack_guard ≤ x ∧ x < z.stack_bottom)

/-! ## The calls of `el2_main` -/

/-- An identity mapping of `[start, stop)` as normal memory. -/
def call (start stop : ℕ) (ro exec : Bool) : MapCall where
  va_start := BitVec.ofNat 64 start
  pa_start := BitVec.ofNat 64 start
  size := BitVec.ofNat 64 (stop - start)
  attr_idx := NORMAL_WB
  ro := ro
  exec := exec

def uartCall : MapCall where
  va_start := UART_PA
  pa_start := UART_PA
  size := UART_SIZE
  attr_idx := DEVICE_nGnRE
  ro := false
  exec := false

def bootCalls : List MapCall :=
  [call text_start z.text_end true true, call z.rodata_start z.rodata_end true false,
    call z.data_start z.data_end false false, call z.bss_start z.bss_end false false,
    call z.stack_bottom z.stack_top false false, uartCall]

theorem el2_main_map_eq (L : El2Layout) (t : El2Tables) :
    El2.el2_main_map L z t = MapCall.runAll L z.bootCalls (El2.el2_mmu_init L t) := by
  simp only [MapCall.runAll, bootCalls, List.foldlM_cons, List.foldlM_nil, bind_pure]
  rfl

theorem call_toNat {start stop : ℕ} (ro exec : Bool) (hle : start ≤ stop) (hb : stop < 2 ^ 64) :
    (call start stop ro exec).va_start.toNat = start ∧
      (call start stop ro exec).size.toNat = stop - start := by
  simp only [call, BitVec.toNat_ofNat]
  omega

section Call

variable {start stop : ℕ} {ro exec : Bool} (ha : start % 0x1000 = 0) (hle : start ≤ stop)
  (hb : stop ≤ 2 ^ 39)
include hle hb

theorem call_inBounds : (call start stop ro exec).InBounds := by
  obtain ⟨hva, hsize⟩ := call_toNat ro exec hle (hb.trans_lt (by decide))
  have hpa : (call start stop ro exec).pa_start.toNat = start := hva
  exact ⟨by omega, by omega, by rw [hva, hpa]⟩

include ha

/-- An empty section covers nothing, any other all pages up to its rounded end. -/
theorem call_covers (x : ℕ) : (call start stop ro exec).Covers x ↔ start ≤ x ∧ x < ALIGN stop := by
  obtain ⟨hva, hsize⟩ := call_toNat ro exec hle (hb.trans_lt (by decide))
  have hzero : (call start stop ro exec).size = 0 ↔ stop = start := by
    rw [← BitVec.toNat_inj, hsize]
    constructor
    · intro h
      have hdiff : stop - start = 0 := h
      omega
    · intro h
      rw [h, Nat.sub_self]
      rfl
  rw [MapCall.Covers, hva, hsize, ne_eq, hzero]
  simp only [pageRound, ALIGN]
  omega

end Call

theorem call_translation (start stop : ℕ) (ro exec : Bool) (x : U64) :
    (call start stop ro exec).translation x =
      { pa := x, attr := MAIR_ATTR_NORMAL_WBWA, write := !ro, exec := exec } := by
  have hattr : (MAIR_EL2_VALUE >>> (8 * (NORMAL_WB.toNat % 8))).setWidth 8 = MAIR_ATTR_NORMAL_WBWA := by
    decide
  simp only [MapCall.translation, call, hattr, add_sub_cancel]

theorem uartCall_translation (x : U64) : uartCall.translation x =
    { pa := x, attr := MAIR_ATTR_DEVICE_nGnRE, write := true, exec := false } := by
  have hattr : (MAIR_EL2_VALUE >>> (8 * (DEVICE_nGnRE.toNat % 8))).setWidth 8 =
      MAIR_ATTR_DEVICE_nGnRE := by decide
  simp only [MapCall.translation, uartCall, hattr, add_sub_cancel, Bool.not_false]

theorem uartCall_covers (x : ℕ) : uartCall.Covers x ↔ 0x09000000 ≤ x ∧ x < 0x09001000 := by
  have hva : uartCall.va_start.toNat = 0x09000000 := rfl
  have hsize : uartCall.size.toNat = 0x1000 := rfl
  have hne : uartCall.size ≠ 0 := by decide
  rw [MapCall.Covers, hva, hsize]
  simp only [pageRound, hne, ne_eq, not_false_eq_true, true_and]
  omega

/-- The sections start on pages. -/
theorem starts_aligned : text_start % 0x1000 = 0 ∧ z.rodata_start % 0x1000 = 0 ∧
    z.data_start % 0x1000 = 0 ∧ z.bss_start % 0x1000 = 0 ∧ z.stack_bottom % 0x1000 = 0 := by
  have hstep : ∀ n, (ALIGN n + 0x1000) % 0x1000 = 0 := by
    intro n
    rw [Nat.add_mod_right, ALIGN_mod]
  exact ⟨rfl, hstep _, hstep _, hstep _, hstep _⟩

/-- What EL2 maps at `x`: the last of the calls whose pages contain it. -/
def bootMap (x : U64) : Option El2Translation :=
  let normal (write exec : Bool) : El2Translation :=
    { pa := x, attr := MAIR_ATTR_NORMAL_WBWA, write := write, exec := exec }
  if 0x09000000 ≤ x.toNat ∧ x.toNat < 0x09001000 then
    some { pa := x, attr := MAIR_ATTR_DEVICE_nGnRE, write := true, exec := false }
  else if z.stack_bottom ≤ x.toNat ∧ x.toNat < ALIGN z.stack_top then some (normal true false)
  else if z.bss_start ≤ x.toNat ∧ x.toNat < ALIGN z.bss_end then some (normal true false)
  else if z.data_start ≤ x.toNat ∧ x.toNat < ALIGN z.data_end then some (normal true false)
  else if z.rodata_start ≤ x.toNat ∧ x.toNat < ALIGN z.rodata_end then some (normal false false)
  else if text_start ≤ x.toNat ∧ x.toNat < ALIGN z.text_end then some (normal false true)
  else none

section Boot

variable {z} (htop : z.stack_top ≤ 2 ^ 39)
include htop

theorem bootCalls_inBounds : ∀ k ∈ z.bootCalls, k.InBounds := by
  have ho := z.order
  simp only [bootCalls, List.forall_mem_cons, List.not_mem_nil, false_implies, implies_true, and_true]
  refine ⟨call_inBounds ?_ ?_, call_inBounds ?_ ?_, call_inBounds ?_ ?_, call_inBounds ?_ ?_,
    call_inBounds ?_ ?_, ⟨by decide, by decide, rfl⟩⟩ <;> omega

/-- The last call that covers an address, as a table of intervals. -/
theorem lastCall_bootCalls (x : U64) :
    ((lastCall z.bootCalls x.toNat).map fun k => k.translation x) = z.bootMap x := by
  obtain ⟨ht, hr, hd, hb, hs⟩ := z.starts_aligned
  have ho := z.order
  have hconcat : z.bootCalls = [] ++ [call text_start z.text_end true true] ++
      [call z.rodata_start z.rodata_end true false] ++ [call z.data_start z.data_end false false] ++
      [call z.bss_start z.bss_end false false] ++ [call z.stack_bottom z.stack_top false false] ++
      [uartCall] := rfl
  have hnil : lastCall [] x.toNat = none := rfl
  rw [hconcat]
  simp only [lastCall_concat, hnil, uartCall_covers, call_covers hs (by omega) htop,
    call_covers hb (by omega) (by omega : z.bss_end ≤ 2 ^ 39),
    call_covers hd (by omega) (by omega : z.data_end ≤ 2 ^ 39),
    call_covers hr (by omega) (by omega : z.rodata_end ≤ 2 ^ 39),
    call_covers ht (by omega) (by omega : z.text_end ≤ 2 ^ 39), apply_ite (Option.map _),
    Option.map_some, Option.map_none, call_translation, uartCall_translation, Bool.not_true,
    Bool.not_false, bootMap]

/-- For all section sizes the walk of EL2 gives the boot map. -/
theorem boot_walk {L : El2Layout} {t₀ t : El2Tables} (ht : El2.el2_main_map L z t₀ = some t)
    (other : U64 → BitVec 9 → U64) (r : El2Regs) (x : U64) :
    el2_walk L other t (el2_mmu_enable L r) x = z.bootMap x := by
  by_cases hx : x.toNat < 2 ^ 39
  · rw [el2_main_map_eq] at ht
    rw [walk_calls (fun k hk _ => bootCalls_inBounds htop k hk) ht other r hx, lastCall_bootCalls htop]
  · have hnone : lastCall z.bootCalls x.toNat = none := by
      refine List.find?_eq_none.mpr ?_
      intro k hk
      have hva := (bootCalls_inBounds htop k (List.mem_reverse.mp hk)).va_fits
      have hout : ¬ k.Covers x.toNat := by
        intro hc
        have hlt := hc.2.2
        simp only [pageRound] at hlt
        omega
      simpa using hout
    rw [el2_walk_of_high (by omega), ← lastCall_bootCalls htop, hnone]
    rfl

/-- The mapping is built when the image touches no more regions than there are tables. -/
theorem boot_isSome_iff (L : El2Layout) (t₀ : El2Tables) : (El2.el2_main_map L z t₀).isSome ↔
    (regions z.bootCalls 30).card ≤ EL2_MAX_L2_TABLES ∧
      (regions z.bootCalls 21).card ≤ EL2_MAX_L3_TABLES := by
  rw [el2_main_map_eq]
  exact calls_isSome_iff (fun k hk _ => (bootCalls_inBounds htop k hk).va_fits) L t₀

/-- Everything that is mapped lies in the UART page or in the image. -/
theorem covers_bootCalls {x : ℕ} (h : ∃ k ∈ z.bootCalls, k.Covers x) :
    (0x09000000 ≤ x ∧ x < 0x09001000) ∨ (0x40000000 ≤ x ∧ x < z.stack_top) := by
  obtain ⟨ht, hr, hd, hb, hs⟩ := z.starts_aligned
  have ho := z.order
  simp only [bootCalls, List.exists_mem_cons_iff, List.not_mem_nil, false_and, exists_false, or_false,
    uartCall_covers, call_covers hs (by omega) htop,
    call_covers hb (by omega) (by omega : z.bss_end ≤ 2 ^ 39),
    call_covers hd (by omega) (by omega : z.data_end ≤ 2 ^ 39),
    call_covers hr (by omega) (by omega : z.rodata_end ≤ 2 ^ 39),
    call_covers ht (by omega) (by omega : z.text_end ≤ 2 ^ 39)] at h
  omega

end Boot

/-- An image of at most 126 MB fits the pools. -/
theorem small_fits {z : Sections} (htop : z.stack_top ≤ 0x40000000 + 63 * 2 ^ 21) :
    (regions z.bootCalls 30).card ≤ EL2_MAX_L2_TABLES ∧
      (regions z.bootCalls 21).card ≤ EL2_MAX_L3_TABLES := by
  have hgb : regions z.bootCalls 30 ⊆ Finset.range 2 := by
    intro r hr
    obtain ⟨x, -, hc, rfl⟩ := mem_regions.mp hr
    have := covers_bootCalls (htop.trans (by decide)) hc
    rw [Finset.mem_range]
    omega
  have hmb : regions z.bootCalls 21 ⊆ insert 72 (Finset.Ico 512 575) := by
    intro r hr
    obtain ⟨x, -, hc, rfl⟩ := mem_regions.mp hr
    have := covers_bootCalls (htop.trans (by decide)) hc
    rw [Finset.mem_insert, Finset.mem_Ico]
    omega
  exact ⟨(Finset.card_le_card hgb).trans (by decide), (Finset.card_le_card hmb).trans (by decide)⟩

/-- EL2 maps the UART page and the whole pages that a section touches. -/
def El2Mapped (x : ℕ) : Prop :=
  (0x09000000 ≤ x ∧ x < 0x09001000) ∨ (text_start ≤ x ∧ x < ALIGN z.text_end) ∨
    (z.rodata_start ≤ x ∧ x < ALIGN z.rodata_end) ∨ (z.data_start ≤ x ∧ x < ALIGN z.data_end) ∨
    (z.bss_start ≤ x ∧ x < ALIGN z.bss_end) ∨ (z.stack_bottom ≤ x ∧ x < z.stack_top)

instance (x : ℕ) : Decidable (z.El2Mapped x) := inferInstanceAs (Decidable (_ ∨ _))

theorem bootMap_isSome_iff (x : U64) : (z.bootMap x).isSome ↔ z.El2Mapped x.toNat := by
  have ho := z.order
  simp only [bootMap, El2Mapped]
  split_ifs <;> simp only [Option.isSome_some, Option.isSome_none, Bool.false_eq_true, true_iff,
    false_iff] <;> omega

/-- An image of machine addresses whose mapping is built ends in the 39-bit space. -/
theorem stack_top_of_built {L : El2Layout} {t₀ t : El2Tables} (htop : z.stack_top < 2 ^ 64)
    (h : El2.el2_main_map L z t₀ = some t) : z.stack_top ≤ 2 ^ 39 := by
  rw [el2_main_map_eq] at h
  have ho := z.order
  have hbound : ∀ {start stop : ℕ} {ro exec : Bool}, call start stop ro exec ∈ z.bootCalls →
      start ≤ stop → ALIGN stop < 2 ^ 64 → stop ≤ start + 2 ^ 27 := by
    intro start stop ro exec hmem hle hstop
    obtain ⟨hva, hsize⟩ := call_toNat ro exec hle ((le_ALIGN stop).trans_lt hstop)
    have hfit : pageRound ((call start stop ro exec).va_start.toNat +
        (call start stop ro exec).size.toNat) < 2 ^ 64 := by
      rw [hva, hsize, Nat.add_sub_cancel' hle]
      exact hstop
    have hbuilt := size_le_of_built h hmem hfit
    have htables : EL2_MAX_L3_TABLES * 2 ^ 21 = 2 ^ 27 := by decide
    rw [hsize, htables] at hbuilt
    omega
  have htext := hbound (.head _) (by omega) (by omega : ALIGN z.text_end < 2 ^ 64)
  have hrodata := hbound (.tail _ (.head _)) (by omega) (by omega : ALIGN z.rodata_end < 2 ^ 64)
  have hdata := hbound (.tail _ (.tail _ (.head _))) (by omega) (by omega : ALIGN z.data_end < 2 ^ 64)
  have hbss := hbound (.tail _ (.tail _ (.tail _ (.head _)))) (by omega)
    (by omega : ALIGN z.bss_end < 2 ^ 64)
  have hround : ∀ n, ALIGN n < n + 0x1000 := by
    intro n
    rw [ALIGN]
    omega
  have ht := hround z.text_end
  have hr := hround z.rodata_end
  have hd := hround z.data_end
  have hb := hround z.bss_end
  omega

/-- The pages behind the sections are not mapped. -/
theorem not_mapped_behind : ¬ z.El2Mapped (ALIGN z.text_end) ∧ ¬ z.El2Mapped (ALIGN z.rodata_end) ∧
    ¬ z.El2Mapped (ALIGN z.data_end) ∧ ¬ z.El2Mapped (ALIGN z.bss_end) ∧ ¬ z.El2Mapped z.stack_top := by
  have ho := z.order
  simp only [El2Mapped]
  refine ⟨?_, ?_, ?_, ?_, ?_⟩ <;> omega

/-- EL2 maps whole pages. -/
theorem mapped_page_iff {x i : ℕ} (hx : x % 0x1000 = 0) (hi : i < 0x1000) :
    z.El2Mapped (x + i) ↔ z.El2Mapped x := by
  have hpage : ∀ {lo hi : ℕ}, lo % 0x1000 = 0 → hi % 0x1000 = 0 →
      (lo ≤ x + i ∧ x + i < hi ↔ lo ≤ x ∧ x < hi) := by
    intro lo hi hlo hhi
    omega
  obtain ⟨ht, hr, hd, hb, hs⟩ := z.starts_aligned
  exact or_congr (hpage (by decide) (by decide)) (or_congr (hpage ht (ALIGN_mod _))
    (or_congr (hpage hr (ALIGN_mod _)) (or_congr (hpage hd (ALIGN_mod _))
      (or_congr (hpage hb (ALIGN_mod _)) (hpage hs z.stack_top_mod)))))

theorem bootMap_pa {x : U64} {tr : El2Translation} (h : z.bootMap x = some tr) : tr.pa = x := by
  simp only [bootMap] at h
  split_ifs at h <;> cases h <;> rfl

/-! ## The boot mapping is W^X with live guards -/

/-- Every byte of a section has the permissions of the section, nothing is writable and executable, and
the guard pages are unmapped. -/
structure Protected (walk : U64 → Option El2Translation) : Prop where
  text : ∀ x : U64, text_start ≤ x.toNat → x.toNat < z.text_end →
    walk x = some { pa := x, attr := MAIR_ATTR_NORMAL_WBWA, write := false, exec := true }
  rodata : ∀ x : U64, z.rodata_start ≤ x.toNat → x.toNat < z.rodata_end →
    walk x = some { pa := x, attr := MAIR_ATTR_NORMAL_WBWA, write := false, exec := false }
  data : ∀ x : U64, (z.data_start ≤ x.toNat ∧ x.toNat < z.data_end) ∨
      (z.bss_start ≤ x.toNat ∧ x.toNat < z.bss_end) ∨
      (z.stack_bottom ≤ x.toNat ∧ x.toNat < z.stack_top) →
    walk x = some { pa := x, attr := MAIR_ATTR_NORMAL_WBWA, write := true, exec := false }
  uart : ∀ x : U64, UART_PA.toNat ≤ x.toNat → x.toNat < UART_PA.toNat + UART_SIZE.toNat →
    walk x = some { pa := x, attr := MAIR_ATTR_DEVICE_nGnRE, write := true, exec := false }
  write_xor_exec : ∀ x tr, walk x = some tr → ¬ (tr.write = true ∧ tr.exec = true)
  guards : ∀ x : U64, z.InGuard x.toNat → walk x = none

theorem bootMap_protected : z.Protected z.bootMap := by
  have ho := z.order
  constructor
  · intro x hlo hhi
    rw [bootMap, if_neg (by omega), if_neg (by omega), if_neg (by omega), if_neg (by omega),
      if_neg (by omega), if_pos (by omega)]
  · intro x hlo hhi
    rw [bootMap, if_neg (by omega), if_neg (by omega), if_neg (by omega), if_neg (by omega),
      if_pos (by omega)]
  · rintro x (hd | hb | hs)
    · rw [bootMap, if_neg (by omega), if_neg (by omega), if_neg (by omega), if_pos (by omega)]
    · rw [bootMap, if_neg (by omega), if_neg (by omega), if_pos (by omega)]
    · rw [bootMap, if_neg (by omega), if_pos (by omega)]
  · intro x hlo hhi
    exact if_pos ⟨hlo, hhi⟩
  · intro x tr htr
    simp only [bootMap] at htr
    split_ifs at htr <;> cases htr <;> simp
  · intro x hx
    simp only [InGuard] at hx
    rw [bootMap, if_neg (by omega), if_neg (by omega), if_neg (by omega), if_neg (by omega),
      if_neg (by omega), if_neg (by omega)]

end Sections

/-- For every image whose sections stay in the 39-bit space and fit the table pools, the boot mapping
is built, and EL2's translation gives each section its permissions, maps nothing writable and
executable and leaves the guard pages unmapped. -/
theorem el2_boot_protected (L : El2Layout) (other : U64 → BitVec 9 → U64) (r : El2Regs)
    (t₀ : El2Tables) (z : Sections) (htop : z.stack_top ≤ 2 ^ 39)
    (hgb : (regions z.bootCalls 30).card ≤ EL2_MAX_L2_TABLES)
    (hmb : (regions z.bootCalls 21).card ≤ EL2_MAX_L3_TABLES) :
    ∃ t, El2.el2_main_map L z t₀ = some t ∧
      z.Protected (el2_walk L other t (el2_mmu_enable L r)) := by
  obtain ⟨t, ht⟩ := Option.isSome_iff_exists.mp ((Sections.boot_isSome_iff htop L t₀).mpr ⟨hgb, hmb⟩)
  refine ⟨t, ht, ?_⟩
  rw [funext (Sections.boot_walk htop ht other r)]
  exact z.bootMap_protected

/-- An image with an empty `.data` whose other sections end inside a page. -/
def unalignedImage : Sections where
  text := 0x6123
  rodata := 0x1a40
  data := 0
  bss := 0x480010

/-- The three tables of EL2 at the start of the image's `.bss`. -/
def unalignedTables : El2Layout where
  el2_l1 := 0x4000c000
  l2_pool := 0x4000d000
  l3_pool := 0x4002d000
  l1_aligned := by decide
  l2_aligned := by decide
  l3_aligned := by decide
  l1_below := by decide
  l2_below := by decide
  l3_below := by decide
  l1_l2 := by decide
  l1_l3 := by decide
  l2_l3 := by decide

theorem el2_boot_protected_unaligned :
    (unalignedImage.stack_top ≤ 2 ^ 39 ∧
      (regions unalignedImage.bootCalls 30).card ≤ EL2_MAX_L2_TABLES ∧
      (regions unalignedImage.bootCalls 21).card ≤ EL2_MAX_L3_TABLES) ∧
    ∃ t, El2.el2_main_map unalignedTables unalignedImage S2Tables.cleared = some t ∧
      unalignedImage.Protected (el2_walk unalignedTables (fun _ _ => 0) t
        (el2_mmu_enable unalignedTables ⟨0, 0, 0, 0⟩)) := by
  obtain ⟨hgb, hmb⟩ := Sections.small_fits (z := unalignedImage) (by decide)
  exact ⟨⟨by decide, hgb, hmb⟩,
    el2_boot_protected unalignedTables _ _ _ unalignedImage (by decide) hgb hmb⟩

end Schism
