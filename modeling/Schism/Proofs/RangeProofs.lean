import Schism.Proofs.S2MmuProofs

/-!
# Ranges of whole pages

Both builders map a range of bytes page by page. The pages are those of the rounded range, as long as
its end is a machine address (`mem_rangePaths`); the hardware tells two pages apart only by the 27 bits
of the three indices (`s2Path_eq_iff_mod`).
-/

namespace Schism

open Bits PageTables S2

/-- A length rounded up to whole pages. -/
def pageRound (n : ℕ) : ℕ := (n + 0xfff) / 2 ^ 12 * 2 ^ 12

theorem pageRound_mod (n : ℕ) : pageRound n % 2 ^ 12 = 0 := Nat.mul_mod_left _ _

theorem le_pageRound (n : ℕ) : n ≤ pageRound n := by
  simp only [pageRound]
  omega

/-- The machine rounds up modulo `2^64`. -/
theorem align_up_toNat_mod (v : U64) :
    (align_up v S2_PAGE_SIZE).toNat = pageRound v.toNat % 2 ^ 64 := by
  have := v.isLt
  rw [align_up_toNat, pageRound]
  omega

theorem align_up_of_fits {v : U64} (h : pageRound v.toNat < 2 ^ 64) :
    (align_up v S2_PAGE_SIZE).toNat = pageRound v.toNat := by
  rw [align_up_toNat_mod, Nat.mod_eq_of_lt h]

/-- A length that is not zero is rounded to at least one page. -/
theorem le_pageRound_of_ne {v : U64} (hv : v ≠ 0) : 2 ^ 12 ≤ pageRound v.toNat := by
  have hpos : 0 < v.toNat := by
    rw [Nat.pos_iff_ne_zero]
    exact fun hz => hv (BitVec.eq_of_toNat_eq hz)
  simp only [pageRound]
  omega

theorem align_up_ne_zero {v : U64} (hv : v ≠ 0) (h : pageRound v.toNat < 2 ^ 64) :
    align_up v S2_PAGE_SIZE ≠ 0 := by
  intro hz
  have hpos := le_pageRound_of_ne hv
  rw [← align_up_of_fits h, hz] at hpos
  exact absurd hpos (by decide)

/-- Two addresses have the same path exactly when their pages agree modulo the 39-bit space. -/
theorem s2Path_eq_iff_mod {x y : U64} :
    s2Path x = s2Path y ↔ x.toNat / 2 ^ 12 % 2 ^ 27 = y.toNat / 2 ^ 12 % 2 ^ 27 := by
  simp only [s2Path, Prod.mk.injEq, ← BitVec.toNat_inj, lvlIndex_toNat]
  omega

/-! ## The pages of a range -/

/-- The addresses of the pages that a loop over the rounded range visits, in order. -/
def rangeAddrs (start size : U64) : List U64 :=
  (List.range (pageCount start size)).map fun i =>
    align_down start S2_PAGE_SIZE + BitVec.ofNat 64 (i * 2 ^ 12)

/-- The paths of the pages that a loop over the rounded range writes, in order. -/
def rangePaths (start size : U64) : List (Path (BitVec 9)) :=
  (List.range (pageCount start size)).map fun i =>
    s2Path (align_down start S2_PAGE_SIZE + BitVec.ofNat 64 (i * 2 ^ 12))

theorem rangePaths_eq (start size : U64) : rangePaths start size = (rangeAddrs start size).map s2Path := by
  rw [rangePaths, rangeAddrs, List.map_map]
  rfl

theorem rangePages_paths (ipa_start pa_start size : U64) (read write exec : U8) :
    (rangePages ipa_start pa_start size read write exec).map Prod.fst = rangePaths ipa_start size := by
  rw [rangePages, List.map_map]
  rfl

/-- A range with a page is not empty. -/
theorem size_ne_zero {start size : U64} {i : ℕ} (hi : i < pageCount start size) : size ≠ 0 := by
  intro hz
  rw [pageCount, if_pos hz] at hi
  exact Nat.not_lt_zero i hi

section Fits

variable {start size : U64} (hfit : size ≠ 0 → pageRound (start.toNat + size.toNat) < 2 ^ 64)
include hfit

theorem pageCount_of_fits (hs : size ≠ 0) : pageCount start size =
    pageRound (start.toNat + size.toNat) / 2 ^ 12 - start.toNat / 2 ^ 12 := by
  have hlt := hfit hs
  rw [pageCount, if_neg hs, align_up_toNat, align_down_toNat, BitVec.toNat_add]
  simp only [pageRound] at hlt ⊢
  omega

/-- The address of page `i` of the range. -/
theorem rangeAddr_toNat {i : ℕ} (hi : i < pageCount start size) :
    (align_down start S2_PAGE_SIZE + BitVec.ofNat 64 (i * 2 ^ 12)).toNat =
      start.toNat / 2 ^ 12 * 2 ^ 12 + i * 2 ^ 12 := by
  have hs := size_ne_zero hi
  have hlt := hfit hs
  rw [pageCount_of_fits hfit hs] at hi
  rw [BitVec.toNat_add, BitVec.toNat_ofNat, align_down_toNat]
  omega

/-- The pages that are visited are those of the rounded range. -/
theorem mem_rangeAddrs {y : U64} : y ∈ rangeAddrs start size ↔
    size ≠ 0 ∧ y.toNat % 2 ^ 12 = 0 ∧ start.toNat / 2 ^ 12 * 2 ^ 12 ≤ y.toNat ∧
      y.toNat < pageRound (start.toNat + size.toNat) := by
  have hmod := pageRound_mod (start.toNat + size.toNat)
  simp only [rangeAddrs, List.mem_map, List.mem_range]
  constructor
  · rintro ⟨i, hi, rfl⟩
    have haddr := rangeAddr_toNat hfit hi
    have hs := size_ne_zero hi
    rw [pageCount_of_fits hfit hs] at hi
    exact ⟨hs, by omega, by omega, by omega⟩
  · rintro ⟨hs, haligned, hlo, hhi⟩
    have hi : y.toNat / 2 ^ 12 - start.toNat / 2 ^ 12 < pageCount start size := by
      rw [pageCount_of_fits hfit hs]
      omega
    refine ⟨_, hi, BitVec.eq_of_toNat_eq ?_⟩
    rw [rangeAddr_toNat hfit hi]
    omega

/-- The pages that are written are those of the addresses in the rounded range. -/
theorem mem_rangePaths {q : Path (BitVec 9)} : q ∈ rangePaths start size ↔
    size ≠ 0 ∧ ∃ y : U64, start.toNat / 2 ^ 12 * 2 ^ 12 ≤ y.toNat ∧
      y.toNat < pageRound (start.toNat + size.toNat) ∧ s2Path y = q := by
  rw [rangePaths_eq, List.mem_map]
  constructor
  · rintro ⟨y, hy, hpath⟩
    obtain ⟨hs, -, hlo, hhi⟩ := (mem_rangeAddrs hfit).mp hy
    exact ⟨hs, y, hlo, hhi, hpath⟩
  · rintro ⟨hs, y, hlo, hhi, rfl⟩
    have hdown := align_down_toNat y
    refine ⟨align_down y S2_PAGE_SIZE, (mem_rangeAddrs hfit).mpr ⟨hs, ?_⟩, ?_⟩
    · omega
    · rw [s2Path_eq_iff_mod]
      omega

end Fits

/-- Below `2^39` a page is written exactly when it lies in the rounded range. -/
theorem mem_rangePaths_low {start size x : U64}
    (hfit : size ≠ 0 → pageRound (start.toNat + size.toNat) ≤ 2 ^ 39) (hx : x.toNat < 2 ^ 39) :
    s2Path x ∈ rangePaths start size ↔ size ≠ 0 ∧ start.toNat / 2 ^ 12 * 2 ^ 12 ≤ x.toNat ∧
      x.toNat < pageRound (start.toNat + size.toNat) := by
  have hmod := pageRound_mod (start.toNat + size.toNat)
  rw [mem_rangePaths (fun hs => (hfit hs).trans_lt (by decide))]
  constructor
  · rintro ⟨hs, y, hlo, hhi, hpath⟩
    have hle := hfit hs
    rw [s2Path_eq_iff (by omega) hx] at hpath
    exact ⟨hs, by omega, by omega⟩
  · rintro ⟨hs, hlo, hhi⟩
    exact ⟨hs, x, hlo, hhi, rfl⟩

/-! ## Counting the regions that are touched -/

/-- The regions of `2^shift` bytes in which some address of the 39-bit space satisfies `P`. -/
def touched (P : ℕ → Prop) [DecidablePred P] (shift : ℕ) : Finset ℕ :=
  ((Finset.range (2 ^ 39)).filter P).image (· / 2 ^ shift)

theorem mem_touched {P : ℕ → Prop} [DecidablePred P] {shift r : ℕ} :
    r ∈ touched P shift ↔ ∃ x < 2 ^ 39, P x ∧ x / 2 ^ shift = r := by
  simp only [touched, Finset.mem_image, Finset.mem_filter, Finset.mem_range, and_assoc]

/-- A sequence of pages touches the regions of the addresses whose pages it writes. -/
theorem mem_touched_iff {P : ℕ → Prop} [DecidablePred P] {paths : List (Path (BitVec 9))}
    (hP : ∀ x : U64, x.toNat < 2 ^ 39 → (s2Path x ∈ paths ↔ P x.toNat)) (shift r : ℕ) :
    r ∈ touched P shift ↔
      ∃ x : U64, x.toNat < 2 ^ 39 ∧ s2Path x ∈ paths ∧ x.toNat / 2 ^ shift = r := by
  rw [mem_touched]
  constructor
  · rintro ⟨x, hx, hPx, hr⟩
    have hx' : (BitVec.ofNat 64 x).toNat = x := by
      rw [BitVec.toNat_ofNat]
      omega
    refine ⟨BitVec.ofNat 64 x, by omega, ?_, by rw [hx', hr]⟩
    rw [hP _ (by omega), hx']
    exact hPx
  · rintro ⟨x, hx, hmem, hr⟩
    exact ⟨x.toNat, hx, (hP x hx).mp hmem, hr⟩

end Schism
