import Schism.Layout

/-!
# EL2's own translation (`core/el2_mmu.c`, `include/mem_attrs.h`)

The builder of EL2's stage-1 tables, the registers that switch it on, and the ranges that `el2_main`
maps. The table operations are those of `Schism.PageTables`, as for stage 2; `none` is `el2_pt_hang`,
which never returns. `LVL_INDEX_MASK` and `PA_48_MASK` have the same values in both files.

`el2_walk` is the architecture's stage-1 walk of the EL2 regime (4 KB granule, start at level 1, no
hardware update of the access flag). The regime has one privilege level: `AP[2]` alone decides whether
a page is writable, and bit 54 is `XN`. The builder's table descriptors leave the hierarchical
permissions (bits 59 to 63) clear, so the walk takes the permissions from the page.
-/

namespace Schism

open PageTables

def PAGE_SIZE : U64 := 0x1000
def PAGE_MASK : U64 := ~~~(PAGE_SIZE - 1)

def EL2_DESC_TABLE : U64 := 0x3
def EL2_PTE_PAGE : U64 := 0x3
def EL2_PTE_ATTR (x : U8) : U64 := (x.setWidth 64 &&& 0x7) <<< 2
def EL2_PTE_SH_INNER : U64 := 0x3 <<< 8
def EL2_PTE_AF : U64 := 1 <<< 10
def EL2_PTE_RDONLY : U64 := 1 <<< 7
def EL2_PTE_PXN : U64 := 1 <<< 53
def EL2_PTE_UXN : U64 := 1 <<< 54

def MAIR_ATTR_NORMAL_WBWA : U8 := 0xff
def MAIR_ATTR_DEVICE_nGnRE : U8 := 0x04
def NORMAL_WB : U8 := 0
def DEVICE_nGnRE : U8 := 1

def UART_PA : U64 := 0x09000000
def UART_SIZE : U64 := 0x1000

/-! ## The static tables -/

/-- The memory of the builder: `el2_l1`, `l1_children`, the pools and the two counters. -/
abbrev El2Tables := Tables (BitVec 9) U64

/-- The sizes of `l2_pool` and `l3_pool`. -/
def EL2_MAX_L2_TABLES : ℕ := 16
def EL2_MAX_L3_TABLES : ℕ := 64

/-- Where the linker put the three arrays: aligned, below `2^48` and apart from each other. -/
structure El2Layout where
  el2_l1 : U64
  l2_pool : U64
  l3_pool : U64
  l1_aligned : el2_l1.toNat % 0x1000 = 0
  l2_aligned : l2_pool.toNat % 0x1000 = 0
  l3_aligned : l3_pool.toNat % 0x1000 = 0
  l1_below : el2_l1.toNat + 0x1000 ≤ 2 ^ 48
  l2_below : l2_pool.toNat + 0x2000 * EL2_MAX_L2_TABLES ≤ 2 ^ 48
  l3_below : l3_pool.toNat + 0x1000 * EL2_MAX_L3_TABLES ≤ 2 ^ 48
  l1_l2 : el2_l1.toNat + 0x1000 ≤ l2_pool.toNat ∨
    l2_pool.toNat + 0x2000 * EL2_MAX_L2_TABLES ≤ el2_l1.toNat
  l1_l3 : el2_l1.toNat + 0x1000 ≤ l3_pool.toNat ∨
    l3_pool.toNat + 0x1000 * EL2_MAX_L3_TABLES ≤ el2_l1.toNat
  l2_l3 : l2_pool.toNat + 0x2000 * EL2_MAX_L2_TABLES ≤ l3_pool.toNat ∨
    l3_pool.toNat + 0x1000 * EL2_MAX_L3_TABLES ≤ l2_pool.toNat

/-- The pools and descriptors of the EL2 builder. -/
def El2Layout.pools (L : El2Layout) : Pools U64 U64 where
  n2 := EL2_MAX_L2_TABLES
  n3 := EL2_MAX_L3_TABLES
  root := L.el2_l1
  addr2 k := L.l2_pool + BitVec.ofNat 64 (0x2000 * k)
  addr3 m := L.l3_pool + BitVec.ofNat 64 (0x1000 * m)
  empty := 0
  link tbl := (tbl &&& PAGE_MASK) ||| EL2_DESC_TABLE

/-! ## Building the tables -/

namespace El2

variable (L : El2Layout)

def el2_mmu_init : El2Tables → El2Tables := reset L.pools

def alloc_l2 : El2Tables → Option (ℕ × El2Tables) := allocL2 L.pools

def alloc_l3 : El2Tables → Option (ℕ × El2Tables) := allocL3 L.pools

def ensure_l2 (l1_idx : BitVec 9) : El2Tables → Option (ℕ × El2Tables) := ensureL2 L.pools l1_idx

def ensure_l3 (l2 : ℕ) (l2_idx : BitVec 9) : El2Tables → Option (ℕ × El2Tables) :=
  ensureL3 L.pools l2 l2_idx

/-- The descriptor of one page. -/
def page_desc (pa : U64) (attr_idx : U8) (ro exec : Bool) : U64 :=
  let desc := (pa &&& (PA_48_MASK &&& PAGE_MASK)) ||| EL2_PTE_PAGE ||| EL2_PTE_ATTR attr_idx |||
    EL2_PTE_SH_INNER ||| EL2_PTE_AF
  let desc := if ro then desc ||| EL2_PTE_RDONLY else desc
  if !exec then desc ||| (EL2_PTE_PXN ||| EL2_PTE_UXN) else desc

def map_page (va pa : U64) (attr_idx : U8) (ro exec : Bool) (t : El2Tables) : Option El2Tables := do
  let l1_idx := S2.lvlIndex va 30
  let l2_idx := S2.lvlIndex va 21
  let l3_idx := S2.lvlIndex va 12
  let (l2, t) ← ensure_l2 L l1_idx t
  let (l3, t) ← ensure_l3 L l2 l2_idx t
  pure (writeL3 l3 l3_idx (page_desc pa attr_idx ro exec) t)

/-- The loop tests its condition at most once for each page of the address space, and once more. -/
def el2_map_range (va_start pa_start size : U64) (attr_idx : U8) (ro exec : Bool) (t : El2Tables) :
    Option El2Tables :=
  if size = 0 then some t else
  let offset := va_start &&& (PAGE_SIZE - 1)
  let va := va_start - offset
  let pa := pa_start - offset
  let stop := va_start + size
  let limit := (stop + PAGE_SIZE - 1) &&& PAGE_MASK
  strideLoop (fun cur t => map_page L cur (pa + (cur - va)) attr_idx ro exec t)
    PAGE_SIZE limit (2 ^ 52 + 1) va t

/-- `el2_main` from `el2_mmu_init` to the last `el2_map_range`, for an image with the given section
sizes. -/
def el2_main_map (z : Sections) (t : El2Tables) : Option El2Tables := do
  let addr (n : ℕ) : U64 := BitVec.ofNat 64 n
  let t := el2_mmu_init L t
  let t ← el2_map_range L (addr Sections.text_start) (addr Sections.text_start)
    (addr (z.text_end - Sections.text_start)) NORMAL_WB true true t
  let t ← el2_map_range L (addr z.rodata_start) (addr z.rodata_start)
    (addr (z.rodata_end - z.rodata_start)) NORMAL_WB true false t
  let t ← el2_map_range L (addr z.data_start) (addr z.data_start)
    (addr (z.data_end - z.data_start)) NORMAL_WB false false t
  let t ← el2_map_range L (addr z.bss_start) (addr z.bss_start)
    (addr (z.bss_end - z.bss_start)) NORMAL_WB false false t
  let t ← el2_map_range L (addr z.stack_bottom) (addr z.stack_bottom)
    (addr (z.stack_top - z.stack_bottom)) NORMAL_WB false false t
  el2_map_range L UART_PA UART_PA UART_SIZE DEVICE_nGnRE false false t

end El2

/-! ## Switching the translation on -/

/-- The registers of EL2's stage-1 translation. -/
structure El2Regs where
  ttbr0_el2 : U64
  tcr_el2 : U64
  mair_el2 : U64
  sctlr_el2 : U64

def el2_mmu_enable (L : El2Layout) (r : El2Regs) : El2Regs :=
  let ttbr0 := L.el2_l1 &&& (PA_48_MASK &&& PAGE_MASK)
  let TG0_4K : U64 := 0 <<< 14
  let SH0_INNER : U64 := 0b11 <<< 12
  let ORGN0_WB : U64 := 0b01 <<< 10
  let IRGN0_WB : U64 := 0b01 <<< 8
  let T0SZ : U64 := 25
  let IPS_48 : U64 := 0b101 <<< 16
  { ttbr0_el2 := ttbr0
    tcr_el2 := T0SZ ||| TG0_4K ||| SH0_INNER ||| ORGN0_WB ||| IRGN0_WB ||| IPS_48
    mair_el2 := MAIR_EL2_VALUE
    sctlr_el2 := r.sctlr_el2 ||| ((1 <<< 0) ||| (1 <<< 2) ||| (1 <<< 12)) }

/-! ## The hardware walk -/

/-- The meaning of a stage-1 descriptor at a level: the valid, type and access-flag bits are those of
stage 2. -/
def el2_decode : ℕ → U64 → Desc U64 S2Leaf := s2_decode

/-- A successful translation. Every mapped page is readable. -/
structure El2Translation where
  pa : U64
  /-- The byte of `MAIR_EL2` that `AttrIndx` selects. -/
  attr : U8
  write : Bool
  exec : Bool
deriving DecidableEq

/-- What a block or page means for the address `x`, under the given `MAIR_EL2`. -/
def El2Translation.ofLeaf (mair x : U64) (l : S2Leaf) : El2Translation where
  pa := (l.desc &&& oaMask) >>> l.shift <<< l.shift ||| (x &&& ((1 <<< l.shift) - 1))
  attr := (mair >>> (8 * ((l.desc >>> 2) &&& 0x7).toNat)).setWidth 8
  write := !l.desc.getLsbD 7
  exec := !l.desc.getLsbD 54

/-- The translation of `x` at EL2 under the registers `r`, whose `T0SZ` bounds the address space;
memory outside the builder's tables holds `other`. With the MMU off, addresses are physical and all
memory is Device-nGnRnE. -/
def el2_walk (L : El2Layout) (other : U64 → BitVec 9 → U64) (t : El2Tables) (r : El2Regs) (x : U64) :
    Option El2Translation :=
  if r.sctlr_el2.getLsbD 0 = false then some { pa := x, attr := 0, write := true, exec := true }
  else if 2 ^ (64 - (r.tcr_el2 &&& 0x3f).toNat) ≤ x.toNat then none
  else (walk el2_decode (t.read L.pools other) (r.ttbr0_el2 &&& oaMask) (s2Path x)).map
    (.ofLeaf r.mair_el2 x)

/-- What a block or page holds for an address: the things that a call of `el2_map_range` chooses. -/
structure El2Mapping where
  pa : U64
  /-- The field `AttrIndx`. -/
  attr_idx : ℕ
  ro : Bool
  exec : Bool
deriving DecidableEq

def El2Mapping.ofLeaf (x : U64) (l : S2Leaf) : El2Mapping where
  pa := (l.desc &&& oaMask) >>> l.shift <<< l.shift ||| (x &&& ((1 <<< l.shift) - 1))
  attr_idx := ((l.desc >>> 2) &&& 0x7).toNat
  ro := l.desc.getLsbD 7
  exec := !l.desc.getLsbD 54

/-- The fields of the page that the three-level walk of `x` ends at; `none` when it meets an invalid
descriptor. -/
def el2_lookup (L : El2Layout) (other : U64 → BitVec 9 → U64) (t : El2Tables) (r : El2Regs) (x : U64) :
    Option El2Mapping :=
  (walk el2_decode (t.read L.pools other) (r.ttbr0_el2 &&& oaMask) (s2Path x)).map (.ofLeaf x)

end Schism
