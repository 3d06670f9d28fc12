import Schism.Proofs.Stage2Proofs

/-!
# What a stage-2 page descriptor says

The builder puts the index of an attribute in `MAIR_EL2` where the stage-2 format has the memory type
itself. All other fields of a page descriptor are as requested (`s2_map_page_memory`).
-/

namespace Schism

open Bits PageTables S2

/-! ## Reading the fields -/

/-- A field outside the address is a field of the flags. -/
theorem desc_extract (pa : U64) {flags : U64} {start len : ℕ}
    (hfield : oaMask.extractLsb' start len = BitVec.ofNat len 0) :
    ((pa &&& oaMask) ||| flags).extractLsb' start len = flags.extractLsb' start len := by
  rw [BitVec.extractLsb'_or, BitVec.extractLsb'_and, hfield, BitVec.and_zero, BitVec.zero_or]

/-- What the caller of `s2_map_page` asks for: the page of `pa` with the rights given, accessible, inner
shareable, Normal Write-Back. -/
def S2PageFields.requested (pa : U64) (read write exec : U8) : S2PageFields where
  oa := pa &&& 0x0000fffffffff000
  memory := .normal 0b11 0b11
  read := read != 0
  write := write != 0
  shareability := 0b11
  access := true
  exec := exec != 0

theorem pageFlags_fields (read write exec : Bool) :
    (pageFlags read write exec).extractLsb' 0 2 = 0b11 ∧
      (pageFlags read write exec).extractLsb' 2 4 = 0 ∧
      (pageFlags read write exec).extractLsb' 8 2 = 0b11 := by
  revert read write exec
  decide

/-- The fields of a page descriptor are the requested ones, but for the memory type. -/
theorem page_desc_fields (pa : U64) (read write exec : U8) :
    s2_page_fields (page_desc pa read write exec) =
      some { S2PageFields.requested pa read write exec with memory := .device 0 } := by
  obtain ⟨-, -, -, haf, hr, hw, hx⟩ := pageFlags_bits (read != 0) (write != 0) (exec != 0)
  obtain ⟨htype, hmem, hsh⟩ := pageFlags_fields (read != 0) (write != 0) (exec != 0)
  rw [← desc_getLsbD pa rfl, ← page_desc_eq] at haf hr hw hx
  rw [← desc_extract pa (by decide), ← page_desc_eq] at htype hmem hsh
  simp only [s2_page_fields, htype, if_true, page_desc_and_oaMask, hmem, hsh, haf, hr, hw, hx,
    Bool.not_not]
  rfl

/-- No attribute index gives Normal Write-Back memory: only three of the four bits of `MemAttr` are
written. -/
theorem S2_MEMATTR_memory (idx : U64) :
    s2_memory ((S2_MEMATTR idx).extractLsb' 2 4) ≠ .normal 0b11 0b11 := by
  have hfield : (idx &&& 7).toNat = idx.toNat % 2 ^ 3 := toNat_and_ones idx 3 (by decide)
  have hupper : ((S2_MEMATTR idx).extractLsb' 2 4).extractLsb' 2 2 ≠ 0b11 := by
    intro h
    have hbits := congrArg BitVec.toNat h
    have hthree : (0b11 : BitVec 2).toNat = 3 := rfl
    simp only [S2_MEMATTR, BitVec.extractLsb'_toNat, BitVec.toNat_shiftLeft, Nat.shiftLeft_eq,
      Nat.shiftRight_eq_div_pow, hthree] at hbits
    omega
  unfold s2_memory
  split
  · exact fun h => by cases h
  · exact fun h => hupper (S2Memory.normal.inj h).1

theorem page_desc_not_requested (pa : U64) (read write exec : U8) :
    s2_page_fields (page_desc pa read write exec) ≠ some (.requested pa read write exec) := by
  rw [page_desc_fields]
  intro heq
  have hmemory : S2Memory.device 0 = .normal 0b11 0b11 :=
    congrArg S2PageFields.memory (Option.some.inj heq)
  cases hmemory

/-- For all arguments and in all tables, `s2_map_page` writes a descriptor of Device-nGnRnE memory, so it
never writes the requested one; the other fields are right. -/
theorem s2_map_page_memory {L : S2Layout} {ipa pa : U64} {read write exec : U8} {t t' : S2Tables}
    (h : s2_map_page L ipa pa read write exec t = some t') :
    s2_page_fields (t'.entry L.pools (s2Path ipa)) ≠ some (.requested pa read write exec) ∧
      s2_page_fields (t'.entry L.pools (s2Path ipa)) =
        some { S2PageFields.requested pa read write exec with memory := .device 0 } := by
  rw [s2_map_page_eq] at h
  rw [mapPage_entry_self h]
  exact ⟨page_desc_not_requested pa read write exec, page_desc_fields pa read write exec⟩

theorem s2_map_page_memory_cleared : ∃ t',
    s2_map_page packedLayout 0x40201234 0x80001abc 1 0 1 S2Tables.cleared = some t' ∧
      s2_page_fields (t'.entry packedLayout.pools (s2Path 0x40201234)) = some
        { oa := 0x80001000
          memory := .device 0
          read := true
          write := false
          shareability := 0b11
          access := true
          exec := true } := by
  have hreturns : (s2_map_page packedLayout 0x40201234 0x80001abc 1 0 1 S2Tables.cleared).isSome := by
    decide
  obtain ⟨t', ht'⟩ := Option.isSome_iff_exists.mp hreturns
  exact ⟨t', ht', (s2_map_page_memory ht').2⟩

/-- The first page of the guest, readable, writable and executable, is not Normal memory. -/
theorem s2_map_page_device : ∃ t',
    s2_map_page packedLayout 0x40000000 0x40000000 1 1 1 S2Tables.cleared = some t' ∧
      s2_page_fields (t'.entry packedLayout.pools (s2Path 0x40000000)) ≠
        some (.requested 0x40000000 1 1 1) := by
  have hreturns : (s2_map_page packedLayout 0x40000000 0x40000000 1 1 1 S2Tables.cleared).isSome := by
    decide
  obtain ⟨t', ht'⟩ := Option.isSome_iff_exists.mp hreturns
  refine ⟨t', ht', ?_⟩
  rw [s2_map_page_eq] at ht'
  rw [mapPage_entry_self ht']
  exact page_desc_not_requested 0x40000000 1 1 1

end Schism
