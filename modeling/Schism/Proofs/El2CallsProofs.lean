import Schism.Proofs.El2BootProofs

/-!
# The last call of `el2_map_range` wins

For every sequence of calls inside the address spaces that the pools can serve, an address is mapped as
the last call over its page asked for, and not at all when there is no such call. A call changes nothing
outside its own pages, whatever tables it shares with earlier ones.
-/

namespace Schism

open PageTables

section Calls

variable {calls post : List MapCall} {k : MapCall} {x : ℕ}

theorem lastCall_split (pre : List MapCall) (hk : k.Covers x)
    (hpost : ∀ k' ∈ post, ¬ k'.Covers x) : lastCall (pre ++ k :: post) x = some k := by
  induction post using List.reverseRecOn with
  | nil => rw [lastCall_concat, if_pos hk]
  | append_singleton post k' ih =>
    have hlast : ¬ k'.Covers x := hpost k' (by simp)
    rw [← List.cons_append, ← List.append_assoc, lastCall_concat, if_neg hlast]
    exact ih fun k'' hk'' => hpost k'' (by simp [hk''])

theorem lastCall_none (hno : ∀ k ∈ calls, ¬ k.Covers x) : lastCall calls x = none := by
  refine List.find?_eq_none.mpr ?_
  intro k hk
  simpa using hno k (List.mem_reverse.mp hk)

end Calls

/-- For every sequence of calls inside the address spaces that touches no more regions than there are
tables, the calls return, and the walk of every address of the 39-bit space ends at what the last call
whose rounded range contains it asked for (the three low bits of `attr_idx`); it meets an invalid
descriptor when no rounded range contains the address. -/
theorem el2_map_range_last_wins (L : El2Layout) (other : U64 → BitVec 9 → U64) (r : El2Regs)
    (t₀ : El2Tables) (calls : List MapCall) (h : ∀ k ∈ calls, k.size ≠ 0 → k.InBounds)
    (hgb : (regions calls 30).card ≤ EL2_MAX_L2_TABLES)
    (hmb : (regions calls 21).card ≤ EL2_MAX_L3_TABLES) :
    ∃ t, MapCall.runAll L calls (El2.el2_mmu_init L t₀) = some t ∧ ∀ x : U64, x.toNat < 2 ^ 39 →
      (∀ pre k post, calls = pre ++ k :: post → k.Covers x.toNat →
        (∀ k' ∈ post, ¬ k'.Covers x.toNat) →
        el2_lookup L other t (el2_mmu_enable L r) x =
          some { k.request x with attr_idx := k.attr_idx.toNat % 8 }) ∧
      ((∀ k ∈ calls, ¬ k.Covers x.toNat) →
        el2_lookup L other t (el2_mmu_enable L r) x = none) := by
  have hva : ∀ k ∈ calls, k.VaFits := fun k hk => MapCall.vaFits_of_inBounds (h k hk)
  obtain ⟨t, ht⟩ := Option.isSome_iff_exists.mp ((calls_isSome_iff hva L t₀).mpr ⟨hgb, hmb⟩)
  refine ⟨t, ht, ?_⟩
  intro x hx
  have hlookup := lookup_calls h ht other r hx
  constructor
  · rintro pre k post rfl hk hpost
    rw [hlookup, lastCall_split pre hk hpost, Option.map_some]
  · intro hno
    rw [hlookup, lastCall_none hno, Option.map_none]

/-- Calls that end below 4 MB need one table at each level and one more. -/
theorem low_calls_fit {calls : List MapCall} (hlow : ∀ k ∈ calls, ∀ x, k.Covers x → x < 2 ^ 22) :
    (regions calls 30).card ≤ EL2_MAX_L2_TABLES ∧ (regions calls 21).card ≤ EL2_MAX_L3_TABLES := by
  have hsub : ∀ shift n, 2 ^ 22 ≤ n * 2 ^ shift → regions calls shift ⊆ Finset.range n := by
    intro shift n hn r hr
    obtain ⟨x, -, ⟨k, hk, hc⟩, rfl⟩ := mem_regions.mp hr
    rw [Finset.mem_range, Nat.div_lt_iff_lt_mul (Nat.two_pow_pos shift)]
    exact (hlow k hk x hc).trans_le hn
  exact ⟨(Finset.card_le_card (hsub 30 1 (by decide))).trans (by decide),
    (Finset.card_le_card (hsub 21 2 (by decide))).trans (by decide)⟩

/-- Three pages of code across a 2 MB boundary, neither end of which is on a page, and then a device
register over the second of them. -/
def overlappingCalls : List MapCall :=
  [{ va_start := 0x1ff800, pa_start := 0x401ff800, size := 0x2000, attr_idx := 0, ro := true,
      exec := true },
    { va_start := 0x200010, pa_start := 0x9000010, size := 8, attr_idx := 1, ro := false,
      exec := false }]

theorem overlappingCalls_inBounds : ∀ k ∈ overlappingCalls, k.InBounds := by
  simp only [overlappingCalls, List.forall_mem_cons, List.not_mem_nil, false_implies, implies_true,
    and_true]
  exact ⟨⟨by decide, by decide, rfl⟩, ⟨by decide, by decide, rfl⟩⟩

theorem overlappingCalls_fit : (regions overlappingCalls 30).card ≤ EL2_MAX_L2_TABLES ∧
    (regions overlappingCalls 21).card ≤ EL2_MAX_L3_TABLES := by
  refine low_calls_fit ?_
  simp only [overlappingCalls, List.forall_mem_cons, List.not_mem_nil, false_implies, implies_true,
    and_true]
  exact ⟨fun x hc => hc.2.2.trans_le (by decide), fun x hc => hc.2.2.trans_le (by decide)⟩

theorem el2_map_range_last_wins_overlapping :
    ∃ t, MapCall.runAll unalignedTables overlappingCalls
        (El2.el2_mmu_init unalignedTables S2Tables.cleared) = some t ∧
      let lookup := el2_lookup unalignedTables (fun _ _ => 0) t
        (el2_mmu_enable unalignedTables ⟨0, 0, 0, 0⟩)
      lookup 0x1ff000 = some ⟨0x401ff000, 0, true, true⟩ ∧
        lookup 0x200abc = some ⟨0x9000abc, 1, false, false⟩ ∧
        lookup 0x201fff = some ⟨0x40201fff, 0, true, true⟩ ∧ lookup 0x202000 = none := by
  obtain ⟨t, ht, hlookup⟩ := el2_map_range_last_wins unalignedTables (fun _ _ => 0) ⟨0, 0, 0, 0⟩
    S2Tables.cleared overlappingCalls (fun k hk _ => overlappingCalls_inBounds k hk)
    overlappingCalls_fit.1 overlappingCalls_fit.2
  refine ⟨t, ht, ?_, ?_, ?_, ?_⟩
  · exact ((hlookup 0x1ff000 (by decide)).1 [] _ _ rfl (by decide) (by decide)).trans (by decide)
  · exact ((hlookup 0x200abc (by decide)).1 [_] _ [] rfl (by decide) (by decide)).trans (by decide)
  · exact ((hlookup 0x201fff (by decide)).1 [] _ _ rfl (by decide) (by decide)).trans (by decide)
  · exact (hlookup 0x202000 (by decide)).2 (by decide)

/-- A call with an attribute index that the descriptor has no room for. -/
def wideAttrCall : MapCall where
  va_start := 0
  pa_start := 0
  size := 0x1000
  attr_idx := 8
  ro := false
  exec := false

/-- `EL2_PTE_ATTR` keeps three bits: the page asked for with index 8 has index 0. -/
theorem el2_attr_idx_masked :
    (wideAttrCall.InBounds ∧ (regions [wideAttrCall] 30).card ≤ EL2_MAX_L2_TABLES ∧
      (regions [wideAttrCall] 21).card ≤ EL2_MAX_L3_TABLES ∧ wideAttrCall.Covers 0) ∧
    ∃ t, MapCall.runAll unalignedTables [wideAttrCall]
        (El2.el2_mmu_init unalignedTables S2Tables.cleared) = some t ∧
      el2_lookup unalignedTables (fun _ _ => 0) t (el2_mmu_enable unalignedTables ⟨0, 0, 0, 0⟩) 0 ≠
        some (wideAttrCall.request 0) := by
  have hb : ∀ k ∈ [wideAttrCall], k.size ≠ 0 → k.InBounds := by
    intro k hk _
    rw [List.mem_singleton.mp hk]
    exact ⟨by decide, by decide, rfl⟩
  obtain ⟨hgb, hmb⟩ : (regions [wideAttrCall] 30).card ≤ EL2_MAX_L2_TABLES ∧
      (regions [wideAttrCall] 21).card ≤ EL2_MAX_L3_TABLES := by
    refine low_calls_fit ?_
    intro k hk x hc
    rw [List.mem_singleton.mp hk] at hc
    exact hc.2.2.trans_le (by decide)
  obtain ⟨t, ht⟩ := Option.isSome_iff_exists.mp
    ((calls_isSome_iff (fun k hk => MapCall.vaFits_of_inBounds (hb k hk)) unalignedTables
      S2Tables.cleared).mpr ⟨hgb, hmb⟩)
  have hc : wideAttrCall.Covers 0 := by decide
  refine ⟨⟨hb _ (List.mem_singleton_self _) (by decide), hgb, hmb, hc⟩, t, ht, ?_⟩
  have hlast : lastCall [wideAttrCall] (0 : U64).toNat = some wideAttrCall :=
    lastCall_split [] hc (by simp)
  rw [lookup_calls hb ht (fun _ _ => 0) _ (by decide), hlast]
  decide

end Schism
