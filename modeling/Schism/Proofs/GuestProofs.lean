import Schism.Guests
import Schism.Proofs.XorProofs

/-!
# The two checksums of the memory walk

The loop that fills the region and the task that reads it fold the same words, so their checksums differ by
the XOR of what has changed in between (`memwalk_checksum_agrees`). The pattern itself cancels out: for
every seed its checksum is zero (`memwalk_checksum_blind`).
-/

namespace Schism

open Bits

/-! ## The region -/

section Region

variable {region : U64}

theorem elementAddr_toNat (i : ℕ) :
    (elementAddr region i).toNat = (region.toNat + 8 * i) % 2 ^ 64 := by
  rw [elementAddr, BitVec.toNat_add, BitVec.toNat_ofNat, Nat.add_mod_mod]

/-- The words of a region do not overlap. -/
theorem elementAddr_inj {i j : ℕ} (hi : i < words) (hj : j < words)
    (h : elementAddr region i = elementAddr region j) : i = j := by
  have hwords : words = 512 := by decide
  have hlt := region.isLt
  rw [← BitVec.toNat_inj, elementAddr_toNat, elementAddr_toNat] at h
  omega

end Region

/-- The word that the fill loop writes at index `i`. -/
def pattern (seed : U64) (i : ℕ) : U64 := seed ^^^ (BitVec.ofNat 64 i <<< 8)

section Fill

variable {guest_id seed : U64} {mem : Quadwords}

/-- The loop over the first `n` words. -/
def fillLoop (guest_id seed : U64) (mem : Quadwords) (n : ℕ) : Quadwords × U64 :=
  (List.range n).foldl (fun (mem, checksum) i =>
    let value := seed ^^^ (BitVec.ofNat 64 i <<< 8)
    (Function.update mem (elementAddr (guest_private_region guest_id) i) value, checksum ^^^ value)) (mem, 0)

theorem fillLoop_succ (n : ℕ) : fillLoop guest_id seed mem (n + 1) =
    (Function.update (fillLoop guest_id seed mem n).1 (elementAddr (guest_private_region guest_id) n)
        (pattern seed n), (fillLoop guest_id seed mem n).2 ^^^ pattern seed n) := by
  rw [fillLoop, List.range_succ, List.foldl_append]
  rfl

theorem fillLoop_checksum (n : ℕ) :
    (fillLoop guest_id seed mem n).2 = xorAll ((List.range n).map (pattern seed)) := by
  have hfold : (fillLoop guest_id seed mem n).2 =
      (List.range n).foldl (fun acc i => acc ^^^ pattern seed i) 0 := by
    induction n with
    | zero => rfl
    | succ n ih =>
      rw [fillLoop_succ, List.range_succ, List.foldl_append, ← ih]
      rfl
  rw [hfold, foldl_xor]
  exact BitVec.zero_xor

/-- After `n` rounds the first `n` words hold the pattern. -/
theorem fillLoop_mem {n : ℕ} (hn : n ≤ words) {i : ℕ} (hi : i < n) :
    (fillLoop guest_id seed mem n).1 (elementAddr (guest_private_region guest_id) i) = pattern seed i := by
  induction n with
  | zero => exact absurd hi (Nat.not_lt_zero i)
  | succ n ih =>
    rw [fillLoop_succ]
    by_cases heq : i = n
    · subst heq
      exact Function.update_self _ _ _
    · have hne : elementAddr (guest_private_region guest_id) i ≠
          elementAddr (guest_private_region guest_id) n :=
        fun h => heq (elementAddr_inj (by omega) (by omega) h)
      exact (Function.update_of_ne hne _ _).trans (ih (by omega) (by omega))

theorem memwalk_fill_eq : memwalk_fill guest_id seed mem = fillLoop guest_id seed mem words := rfl

theorem memwalk_fill_mem {i : ℕ} (hi : i < words) :
    (memwalk_fill guest_id seed mem).1 (elementAddr (guest_private_region guest_id) i) = pattern seed i := by
  rw [memwalk_fill_eq]
  exact fillLoop_mem le_rfl hi

theorem memwalk_fill_checksum :
    (memwalk_fill guest_id seed mem).2 = xorAll ((List.range words).map (pattern seed)) := by
  rw [memwalk_fill_eq, fillLoop_checksum]

end Fill

/-! ## The task -/

theorem words_even : Even (List.range words).length := by
  rw [List.length_range]
  exact ⟨256, by decide⟩

theorem copy_desc_data0 (msg : String) (out : GuestTaskResult) :
    (copy_desc msg out).data0 = out.data0 := rfl

/-- The guest id is folded in for every word, an even number of times. -/
theorem guest_task_memwalk_data0 (guest_id : U64) (now : Quadwords) (counter : U64)
    (out : GuestTaskResult) : (guest_task_memwalk guest_id now counter out).data0 =
      xorAll ((List.range words).map fun i => now (elementAddr (guest_private_region guest_id) i)) := by
  have hdata : (guest_task_memwalk guest_id now counter out).data0 =
      (List.range words).foldl (fun acc i =>
        acc ^^^ (now (elementAddr (guest_private_region guest_id) i) ^^^ (guest_id <<< 32))) 0 := by
    rw [guest_task_memwalk, copy_desc_data0]
  rw [hdata, foldl_xor, xorAll_map_xor, xorAll_map_const _ words_even]
  exact BitVec.zero_xor.trans BitVec.xor_zero

/-- The word at index `i` of the region. -/
def regionWord (guest_id : U64) (mem : Quadwords) (i : ℕ) : U64 :=
  mem (elementAddr (guest_private_region guest_id) i)

/-- A `result` that was all zero. -/
def blankResult : GuestTaskResult := ⟨0, fun _ => 0, 0, 0, 0, 0, 0, 0⟩

/-- What `data0` and the checksum of the fill loop say about the region: `filled` is memory after the loop,
`now` memory at the task. -/
structure ChecksumsAgree (guest_id checksum data0 : U64) (filled now : Quadwords) : Prop where
  difference : data0 ^^^ checksum =
    xorAll ((List.range words).map fun i => regionWord guest_id now i ^^^ regionWord guest_id filled i)
  intact : (∀ i < words, regionWord guest_id now i = regionWord guest_id filled i) → data0 = checksum
  corrupted : (∃ j < words, regionWord guest_id now j ≠ regionWord guest_id filled j ∧
    ∀ i < words, i ≠ j → regionWord guest_id now i = regionWord guest_id filled i) → data0 ≠ checksum

theorem memwalk_difference (guest_id seed : U64) (mem now : Quadwords) (counter : U64)
    (out : GuestTaskResult) :
    (guest_task_memwalk guest_id now counter out).data0 ^^^ (memwalk_fill guest_id seed mem).2 =
      xorAll ((List.range words).map fun i =>
        regionWord guest_id now i ^^^ regionWord guest_id (memwalk_fill guest_id seed mem).1 i) := by
  have hwritten : (List.range words).map (pattern seed) =
      (List.range words).map (regionWord guest_id (memwalk_fill guest_id seed mem).1) := by
    refine List.map_congr_left ?_
    intro i hi
    exact (memwalk_fill_mem (List.mem_range.mp hi)).symm
  rw [xorAll_map_xor, ← hwritten, memwalk_fill_checksum, guest_task_memwalk_data0]
  rfl

/-- For every guest, every seed and whatever the region holds when the task runs, `data0` differs from the
checksum of the fill loop by the XOR of the changes of all words: an intact region is confirmed and the
corruption of a single word is found. -/
theorem memwalk_checksum_agrees (guest_id seed : U64) (mem now : Quadwords) (counter : U64)
    (out : GuestTaskResult) :
    ChecksumsAgree guest_id (memwalk_fill guest_id seed mem).2
      (guest_task_memwalk guest_id now counter out).data0 (memwalk_fill guest_id seed mem).1 now := by
  have hdiff := memwalk_difference guest_id seed mem now counter out
  refine ⟨hdiff, ?_, ?_⟩
  · intro hintact
    rw [← BitVec.xor_eq_zero_iff, hdiff]
    refine xorAll_eq_zero ?_
    intro a ha
    obtain ⟨i, hi, rfl⟩ := List.mem_map.mp ha
    exact BitVec.xor_eq_zero_iff.mpr (hintact i (List.mem_range.mp hi))
  · rintro ⟨j, hj, hne, hothers⟩ heq
    rw [heq, BitVec.xor_self, xorAll_map_single List.nodup_range (List.mem_range.mpr hj)] at hdiff
    · exact hne (BitVec.xor_eq_zero_iff.mp hdiff.symm)
    · intro i hi hij
      exact BitVec.xor_eq_zero_iff.mpr (hothers i (List.mem_range.mp hi) hij)

/-- A region that holds the pattern, and the same region with one word overwritten. -/
theorem memwalk_checksum_agrees_single :
    (guest_task_memwalk 1 (memwalk_fill 1 0xfeed000000000000 fun _ => 0).1 7 blankResult).data0 =
      (memwalk_fill 1 0xfeed000000000000 fun _ => 0).2 ∧
    (guest_task_memwalk 1 (Function.update (memwalk_fill 1 0xfeed000000000000 fun _ => 0).1
        (elementAddr (guest_private_region 1) 3) 0) 7 blankResult).data0 ≠
      (memwalk_fill 1 0xfeed000000000000 fun _ => 0).2 := by
  constructor
  · exact (memwalk_checksum_agrees 1 0xfeed000000000000 (fun _ => 0) _ 7 blankResult).intact
      fun _ _ => rfl
  · refine (memwalk_checksum_agrees 1 0xfeed000000000000 (fun _ => 0) _ 7 blankResult).corrupted
      ⟨3, by decide, ?_, ?_⟩
    · have hold : regionWord 1 (memwalk_fill 1 0xfeed000000000000 fun _ => 0).1 3 =
          pattern 0xfeed000000000000 3 := memwalk_fill_mem (by decide)
      rw [hold, regionWord, Function.update_self]
      decide
    · intro i hi hne
      exact Function.update_of_ne (fun h => hne (elementAddr_inj hi (by decide) h)) _ _

/-! ## The pattern -/

/-- The index part of the pattern cancels out over the region. -/
theorem xorAll_index : xorAll ((List.range words).map fun i => BitVec.ofNat 64 i <<< 8) = 0 := by
  decide +kernel

/-- The checksum of the pattern does not depend on the seed. -/
theorem xorAll_pattern (seed : U64) : xorAll ((List.range words).map (pattern seed)) = 0 := by
  have hsplit := xorAll_map_xor (fun _ => seed) (fun i => BitVec.ofNat 64 i <<< 8) (List.range words)
  rw [xorAll_map_const seed words_even, xorAll_index] at hsplit
  exact hsplit.trans BitVec.xor_zero

theorem memwalk_fill_checksum_zero (guest_id seed : U64) (mem : Quadwords) :
    (memwalk_fill guest_id seed mem).2 = 0 := by
  rw [memwalk_fill_checksum, xorAll_pattern]

/-- A region that holds the pattern of some seed. -/
theorem guest_task_memwalk_pattern {guest_id seed : U64} {mem now : Quadwords}
    (h : ∀ i < words, regionWord guest_id now i = regionWord guest_id (memwalk_fill guest_id seed mem).1 i)
    (counter : U64) (out : GuestTaskResult) : (guest_task_memwalk guest_id now counter out).data0 = 0 := by
  have hpattern : ((List.range words).map fun i => now (elementAddr (guest_private_region guest_id) i)) =
      (List.range words).map (pattern seed) := by
    refine List.map_congr_left ?_
    intro i hi
    exact (h i (List.mem_range.mp hi)).trans (memwalk_fill_mem (List.mem_range.mp hi))
  rw [guest_task_memwalk_data0, hpattern, xorAll_pattern]

/-- The checksum tells the pass with `seed` from one with `seed'`, so that a region which still holds the
pattern of `seed'` is noticed in the pass with `seed`. -/
structure ChecksumSensitive (guest_id seed seed' : U64) : Prop where
  differ : ∀ mem mem', (memwalk_fill guest_id seed mem).2 ≠ (memwalk_fill guest_id seed' mem').2
  detects : ∀ mem mem' now counter out,
    (∀ i < words, regionWord guest_id now i = regionWord guest_id (memwalk_fill guest_id seed' mem').1 i) →
    (guest_task_memwalk guest_id now counter out).data0 ≠ (memwalk_fill guest_id seed mem).2

/-- For all guests and all pairs of seeds the checksums are the same, and a region with the pattern of
another seed yields the checksum of the current one: every checksum is zero. -/
theorem memwalk_checksum_blind (guest_id seed seed' : U64) :
    ¬ ChecksumSensitive guest_id seed seed' ∧
    (∀ mem mem', (memwalk_fill guest_id seed mem).2 = (memwalk_fill guest_id seed' mem').2) ∧
    ∀ mem mem' now counter out,
      (∀ i < words, regionWord guest_id now i = regionWord guest_id (memwalk_fill guest_id seed' mem').1 i) →
      (guest_task_memwalk guest_id now counter out).data0 = (memwalk_fill guest_id seed mem).2 := by
  have hsame : ∀ mem mem', (memwalk_fill guest_id seed mem).2 = (memwalk_fill guest_id seed' mem').2 := by
    intro mem mem'
    rw [memwalk_fill_checksum_zero, memwalk_fill_checksum_zero]
  refine ⟨fun h => h.differ (fun _ => 0) (fun _ => 0) (hsame _ _), hsame, ?_⟩
  intro mem mem' now counter out h
  rw [guest_task_memwalk_pattern h, memwalk_fill_checksum_zero]

/-- The pattern of the first pass goes unnoticed in the second one. -/
theorem memwalk_checksum_blind_stale :
    (guest_task_memwalk 1 (memwalk_fill 1 0xfeed000000000000 fun _ => 0).1 7 blankResult).data0 =
      (memwalk_fill 1 0xfeed000111111111 fun _ => 0).2 :=
  (memwalk_checksum_blind 1 0xfeed000111111111 0xfeed000000000000).2.2 _ _ _ _ _ fun _ _ => rfl

/-! ## The seeds of a run -/

/-- The seed of pass `n`. -/
def seedOf (n : ℕ) : U64 := 0xfeed000000000000 + BitVec.ofNat 64 n * 0x111111111

section Pass

variable (guest_id : U64) (s : MemwalkOs) (env : MemwalkEnv)

theorem memwalk_pass_seed : (memwalk_pass guest_id s env).seed = s.seed + 0x111111111 := by
  unfold memwalk_pass
  generalize memwalk_fill guest_id s.seed s.mem = filled
  rfl

/-- What one pass logs. -/
theorem memwalk_pass_passes : (memwalk_pass guest_id s env).passes = s.passes ++
    [⟨s.seed, (memwalk_fill guest_id s.seed s.mem).2,
      guest_task_memwalk guest_id (env.disturb (memwalk_fill guest_id s.seed s.mem).1) env.counter
        env.result⟩] := by
  unfold memwalk_pass
  generalize memwalk_fill guest_id s.seed s.mem = filled
  rfl

end Pass

/-- After `n` passes the guest has come to the seed of pass `n`, and each of the passes has logged the
checksum zero. -/
theorem guest_memwalk_os_passes (guest_id currentEl sp : U64) (mem : Quadwords) (envs : List MemwalkEnv) :
    (guest_memwalk_os guest_id currentEl sp mem envs).seed = seedOf envs.length ∧
    ∀ pass ∈ (guest_memwalk_os guest_id currentEl sp mem envs).passes, pass.checksum = 0 := by
  induction envs using List.reverseRecOn with
  | nil => exact ⟨rfl, fun _ h => absurd h List.not_mem_nil⟩
  | append_singleton envs env ih =>
    obtain ⟨hseed, hpasses⟩ := ih
    have hlast : guest_memwalk_os guest_id currentEl sp mem (envs ++ [env]) =
        memwalk_pass guest_id (guest_memwalk_os guest_id currentEl sp mem envs) env := by
      simp only [guest_memwalk_os, List.foldl_append, List.foldl_cons, List.foldl_nil]
    rw [hlast]
    constructor
    · have hstep : seedOf (envs.length + 1) = seedOf envs.length + 0x111111111 := by
        rw [seedOf, seedOf, BitVec.ofNat_add, BitVec.add_mul, ← BitVec.add_assoc]
        rfl
      rw [List.length_append, List.length_singleton, hstep, ← hseed, memwalk_pass_seed]
    · intro pass hpass
      rw [memwalk_pass_passes] at hpass
      rcases List.mem_append.mp hpass with hold | hnew
      · exact hpasses pass hold
      · rw [List.mem_singleton.mp hnew]
        simp only [memwalk_fill_checksum_zero]

/-- The first two seeds. -/
theorem memwalk_checksum_collision :
    seedOf 0 ≠ seedOf 1 ∧ ¬ ChecksumSensitive 1 (seedOf 0) (seedOf 1) := by
  refine ⟨by decide, fun h => h.differ (fun _ => 0) (fun _ => 0) ?_⟩
  rw [memwalk_fill_checksum_zero, memwalk_fill_checksum_zero]

end Schism
