import Schism.S2Mmu

/-!
# The link layout (`linker.ld`)

The section boundaries as functions of the section sizes, in the order of the script, and where the
translation tables lie.
-/

namespace Schism

/-- `ALIGN(0x1000)` of the location counter. -/
def ALIGN (dot : ℕ) : ℕ := (dot + 0xfff) / 0x1000 * 0x1000

/-- The sizes of the output sections. -/
structure Sections where
  text : ℕ
  rodata : ℕ
  data : ℕ
  bss : ℕ

namespace Sections

variable (z : Sections)

def text_start : ℕ := 0x40000000
def text_end : ℕ := text_start + z.text
def rodata_start : ℕ := ALIGN z.text_end + 0x1000
def rodata_end : ℕ := z.rodata_start + z.rodata
def data_start : ℕ := ALIGN z.rodata_end + 0x1000
def data_end : ℕ := z.data_start + z.data
def bss_start : ℕ := ALIGN z.data_end + 0x1000
def bss_end : ℕ := z.bss_start + z.bss
def stack_guard : ℕ := ALIGN z.bss_end
def stack_bottom : ℕ := z.stack_guard + 0x1000
def stack_top : ℕ := z.stack_bottom + 0x8000

/-- The addresses of EL2's `.text`, `.data`, `.bss` and stack. -/
def OwnedByEl2 (a : ℕ) : Prop :=
  (text_start ≤ a ∧ a < z.text_end) ∨ (z.data_start ≤ a ∧ a < z.data_end) ∨
    (z.bss_start ≤ a ∧ a < z.bss_end) ∨ (z.stack_bottom ≤ a ∧ a < z.stack_top)

end Sections

/-- The arrays of the two table builders, each with its size. -/
def tableArrays (s2 : S2Layout) (el2_l1 l2_pool l3_pool : U64) : List (ℕ × ℕ) :=
  [(s2.s2_l1.toNat, 0x1000), (s2.s2_l2_pool.toNat, 0x2000 * S2_MAX_L2_TABLES),
    (s2.s2_l3_pool.toNat, 0x1000 * S2_MAX_L3_TABLES), (el2_l1.toNat, 0x1000),
    (l2_pool.toNat, 0x2000 * 16), (l3_pool.toNat, 0x1000 * 64)]

/-- An image that ends below `0x80000000` and whose `.bss` holds the translation tables of
`s2_mmu.c` and `el2_mmu.c`, apart from each other. -/
structure LinkLayout extends Sections where
  s2 : S2Layout
  el2_l1 : U64
  l2_pool : U64
  l3_pool : U64
  tables_in_bss : ∀ a ∈ tableArrays s2 el2_l1 l2_pool l3_pool,
    toSections.bss_start ≤ a.1 ∧ a.1 + a.2 ≤ toSections.bss_end
  tables_apart : (tableArrays s2 el2_l1 l2_pool l3_pool).Pairwise fun a b =>
    a.1 + a.2 ≤ b.1 ∨ b.1 + b.2 ≤ a.1
  image_below : toSections.stack_top ≤ 0x80000000

end Schism
