import Schism.Machine
import Schism.PageTables

/-!
# Stage-2 translation (`core/s2_mmu.c`, `include/s2_mmu.h`)

The builder of the stage-2 tables and the programming of the translation registers. Both builders of
the repository work alike, so the table operations are those of `Schism.PageTables` at this builder's
pools and descriptors; `none` is `s2_pt_panic`, which never returns.

`s2_walk` is the architecture's stage-2 walk (4 KB granule, 39-bit input addresses, start at level 1,
no hardware update of the access flag). It reads the tables through their addresses.
-/

namespace Schism

open PageTables

def S2_PAGE_SIZE : U64 := 0x1000
def S2_PAGE_MASK : U64 := ~~~(S2_PAGE_SIZE - 1)
def LVL_INDEX_MASK : U64 := 0x1ff
def S2_MAX_L2_TABLES : ℕ := 16
def S2_MAX_L3_TABLES : ℕ := 1024
def PA_48_MASK : U64 := (1 <<< 48) - 1

def S2_TABLE : U64 := 0x3
def S2_PAGE : U64 := 0x3
def S2_AF : U64 := 1 <<< 10
def S2_SH_INNER : U64 := 0x3 <<< 8
def S2_MEMATTR (idx : U64) : U64 := (idx &&& 7) <<< 2
def S2AP_R : U64 := 1 <<< 6
def S2AP_W : U64 := 1 <<< 7
def S2_XN : U64 := 1 <<< 54
def S2_ATTRIDX_NORMAL : U64 := 0
def S2_VM_GUARD_BYTES : U64 := 2 * 0x1000

def align_down (val align : U64) : U64 := val &&& ~~~(align - 1)

def align_up (val align : U64) : U64 := (val + align - 1) &&& ~~~(align - 1)

/-! ## The static tables -/

/-- The memory of the builder: `s2_l1`, `s2_l1_children`, the pools and the two counters. A table has
512 entries. -/
abbrev S2Tables := Tables (BitVec 9) U64

/-- The tables in a cleared `.bss`. -/
def S2Tables.cleared : S2Tables where
  l1 := fun _ => 0
  l1Child := fun _ => none
  l2 := fun _ _ => 0
  l2Child := fun _ _ => none
  l3 := fun _ _ => 0
  l2Used := 0
  l3Used := 0

/-- Where the linker put the three arrays: aligned, below `2^48` and apart from each other. An element
of `s2_l2_pool` holds 512 descriptors and 512 pointers, one of `s2_l3_pool` 512 descriptors. -/
structure S2Layout where
  s2_l1 : U64
  s2_l2_pool : U64
  s2_l3_pool : U64
  l1_aligned : s2_l1.toNat % 0x1000 = 0
  l2_aligned : s2_l2_pool.toNat % 0x1000 = 0
  l3_aligned : s2_l3_pool.toNat % 0x1000 = 0
  l1_below : s2_l1.toNat + 0x1000 ≤ 2 ^ 48
  l2_below : s2_l2_pool.toNat + 0x2000 * S2_MAX_L2_TABLES ≤ 2 ^ 48
  l3_below : s2_l3_pool.toNat + 0x1000 * S2_MAX_L3_TABLES ≤ 2 ^ 48
  l1_l2 : s2_l1.toNat + 0x1000 ≤ s2_l2_pool.toNat ∨
    s2_l2_pool.toNat + 0x2000 * S2_MAX_L2_TABLES ≤ s2_l1.toNat
  l1_l3 : s2_l1.toNat + 0x1000 ≤ s2_l3_pool.toNat ∨
    s2_l3_pool.toNat + 0x1000 * S2_MAX_L3_TABLES ≤ s2_l1.toNat
  l2_l3 : s2_l2_pool.toNat + 0x2000 * S2_MAX_L2_TABLES ≤ s2_l3_pool.toNat ∨
    s2_l3_pool.toNat + 0x1000 * S2_MAX_L3_TABLES ≤ s2_l2_pool.toNat

/-- The pools and descriptors of the stage-2 builder. -/
def S2Layout.pools (L : S2Layout) : Pools U64 U64 where
  n2 := S2_MAX_L2_TABLES
  n3 := S2_MAX_L3_TABLES
  root := L.s2_l1
  addr2 k := L.s2_l2_pool + BitVec.ofNat 64 (0x2000 * k)
  addr3 m := L.s2_l3_pool + BitVec.ofNat 64 (0x1000 * m)
  empty := 0
  link tbl := (tbl &&& PA_48_MASK &&& S2_PAGE_MASK) ||| S2_TABLE

/-! ## Building the tables -/

namespace S2

variable (L : S2Layout)

def s2_tables_reset : S2Tables → S2Tables := reset L.pools

def alloc_l2 : S2Tables → Option (ℕ × S2Tables) := allocL2 L.pools

def alloc_l3 : S2Tables → Option (ℕ × S2Tables) := allocL3 L.pools

def ensure_l2 (l1_idx : BitVec 9) : S2Tables → Option (ℕ × S2Tables) := ensureL2 L.pools l1_idx

def ensure_l3 (l2 : ℕ) (l2_idx : BitVec 9) : S2Tables → Option (ℕ × S2Tables) :=
  ensureL3 L.pools l2 l2_idx

/-- The index of `addr` at the level with the given shift. -/
def lvlIndex (addr : U64) (shift : ℕ) : BitVec 9 := ((addr >>> shift) &&& LVL_INDEX_MASK).setWidth 9

/-- The descriptor of one page. -/
def page_desc (pa : U64) (read write exec : U8) : U64 :=
  let desc := (pa &&& (PA_48_MASK &&& S2_PAGE_MASK)) ||| S2_PAGE ||| S2_AF ||| S2_SH_INNER |||
    S2_MEMATTR S2_ATTRIDX_NORMAL ||| (if read ≠ 0 then S2AP_R else 0) |||
    (if write ≠ 0 then S2AP_W else 0)
  if exec = 0 then desc ||| S2_XN else desc

def s2_map_page (ipa pa : U64) (read write exec : U8) (t : S2Tables) : Option S2Tables := do
  let l1_idx := lvlIndex ipa 30
  let l2_idx := lvlIndex ipa 21
  let l3_idx := lvlIndex ipa 12
  let (l2, t) ← ensure_l2 L l1_idx t
  let (l3, t) ← ensure_l3 L l2 l2_idx t
  pure (writeL3 l3 l3_idx (page_desc pa read write exec) t)

/-- The loop tests its condition at most once for each page of the address space, and once more. -/
def s2_map_identity_range (ipa_start pa_start size : U64) (read write exec : U8) (t : S2Tables) :
    Option S2Tables :=
  if size = 0 then some t else
  let map_start := align_down ipa_start S2_PAGE_SIZE
  let map_end := align_up (ipa_start + size) S2_PAGE_SIZE
  let pa := pa_start - (ipa_start - map_start)
  strideLoop (fun cur t => s2_map_page L cur (pa + (cur - map_start)) read write exec t)
    S2_PAGE_SIZE map_end (2 ^ 52 + 1) map_start t

def s2_build_tables_identity (ipa pa vm_size : U64) (vm_count : U32) (guard_bytes : U64)
    (read write exec : U8) (t : S2Tables) : Option S2Tables :=
  if vm_count = 0 ∨ vm_size = 0 then some t else
  let guard_bytes := align_up guard_bytes S2_PAGE_SIZE
  let vm_size := align_up vm_size S2_PAGE_SIZE
  let t := s2_tables_reset L t
  (List.range vm_count.toNat).foldlM (fun t vm =>
    let slot_offset := BitVec.ofNat 64 vm * (vm_size + guard_bytes)
    let slot_ipa := ipa + slot_offset
    let slot_pa := pa + slot_offset
    s2_map_identity_range L slot_ipa slot_pa vm_size read write exec t) t

end S2

/-! ## Programming the registers -/

def vtcr_el2_value : U64 :=
  (0b00 <<< 14) ||| (0b11 <<< 12) ||| (0b1 <<< 10) ||| (0b1 <<< 8) ||| (0b01 <<< 6) |||
    (64 - 39) ||| (0b101 <<< 16)

def MAIR_EL2_VALUE : U64 := 0xff ||| (0x04 <<< 8)

def VMID : U16 := 1

def s2_program_regs_and_enable (L : S2Layout) (m : Machine) : Machine :=
  let m := m.msr .MAIR_EL2 MAIR_EL2_VALUE
  let m := m.msr .VTCR_EL2 vtcr_el2_value
  let mmfr1 := m.mrs .ID_AA64MMFR1_EL1
  let vmidbits := (mmfr1 >>> 4) &&& 0xf
  let mask : U16 := if vmidbits = 0x2 then 0xffff else 0xff
  let vmid_field : U64 := (VMID &&& mask).setWidth 64 <<< 48
  let baddr_field := L.s2_l1 &&& PA_48_MASK
  let m := m.msr .VTTBR_EL2 (vmid_field ||| baddr_field)
  let hcr := m.mrs .HCR_EL2
  let hcr := hcr ||| (1 <<< 0) ||| (1 <<< 31) ||| (1 <<< 14) ||| (1 <<< 13) ||| (1 <<< 19) |||
    (1 <<< 3) ||| (1 <<< 4) ||| (1 <<< 5)
  let m := m.msr .HCR_EL2 hcr
  m.msr .CNTHCTL_EL2 0

/-! ## The hardware walk -/

/-- Bits `[47:12]`, the address field of a descriptor and of `VTTBR_EL2`. -/
def oaMask : U64 := 0x0000fffffffff000

/-- A block or page: its descriptor and the number of address bits below it. -/
structure S2Leaf where
  desc : U64
  shift : ℕ

/-- The meaning of a stage-2 descriptor at a level. A block or page whose access flag is clear
faults. -/
def s2_decode (level : ℕ) (desc : U64) : Desc U64 S2Leaf :=
  let leaf (shift : ℕ) : Desc U64 S2Leaf :=
    if desc.getLsbD 10 then .leaf ⟨desc, shift⟩ else .invalid
  if desc.getLsbD 0 = false then .invalid
  else if level = 3 then (if desc.getLsbD 1 then leaf 12 else .invalid)
  else if desc.getLsbD 1 then .table (desc &&& oaMask)
  else leaf (if level = 1 then 30 else 21)

/-- A successful translation. -/
structure S2Translation where
  pa : U64
  read : Bool
  write : Bool
  exec : Bool
deriving DecidableEq

def S2Leaf.translate (l : S2Leaf) (x : U64) : S2Translation where
  pa := (l.desc &&& oaMask) >>> l.shift <<< l.shift ||| (x &&& ((1 <<< l.shift) - 1))
  read := l.desc.getLsbD 6
  write := l.desc.getLsbD 7
  exec := !l.desc.getLsbD 54

/-- The memory type of the field `MemAttr[3:0]`: Device when the upper two bits are clear, else Normal
memory with an outer and an inner cacheability, `0b11` being Write-Back. -/
inductive S2Memory where
  | device (kind : BitVec 2)
  | normal (outer inner : BitVec 2)
deriving DecidableEq

def s2_memory (memAttr : BitVec 4) : S2Memory :=
  if memAttr.extractLsb' 2 2 = 0 then .device (memAttr.extractLsb' 0 2)
  else .normal (memAttr.extractLsb' 2 2) (memAttr.extractLsb' 0 2)

/-- The fields of a stage-2 page descriptor. -/
structure S2PageFields where
  oa : U64
  memory : S2Memory
  read : Bool
  write : Bool
  shareability : BitVec 2
  access : Bool
  exec : Bool
deriving DecidableEq

/-- `MemAttr` is `[5:2]`, `S2AP` is `[7:6]`, `SH` is `[9:8]`, `AF` is bit 10 and `XN` is bit 54. -/
def s2_page_fields (desc : U64) : Option S2PageFields :=
  if desc.extractLsb' 0 2 = 0b11 then some
    { oa := desc &&& oaMask
      memory := s2_memory (desc.extractLsb' 2 4)
      read := desc.getLsbD 6
      write := desc.getLsbD 7
      shareability := desc.extractLsb' 8 2
      access := desc.getLsbD 10
      exec := !desc.getLsbD 54 }
  else none

/-- The path of an address through the three levels. -/
def s2Path (x : U64) : Path (BitVec 9) := (S2.lvlIndex x 30, S2.lvlIndex x 21, S2.lvlIndex x 12)

/-- The stage-2 translation of `x` under `VTTBR_EL2 = vttbr`; memory outside the builder's tables
holds `other`. -/
def s2_walk (L : S2Layout) (other : U64 → BitVec 9 → U64) (t : S2Tables) (vttbr x : U64) :
    Option S2Translation :=
  if 2 ^ 39 ≤ x.toNat then none
  else (walk s2_decode (t.read L.pools other) (vttbr &&& oaMask) (s2Path x)).map (·.translate x)

end Schism
