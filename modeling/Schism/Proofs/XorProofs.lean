import Mathlib

/-!
# XOR over a list of words

Folding words with XOR. The result is a sum in a group in which every element is its own inverse, so it
depends on the elements and not on their order, and a summand that occurs twice is gone.
-/

namespace Schism.Bits

variable {w : ℕ} {α : Type*}

/-- The XOR of a list of words. -/
def xorAll (l : List (BitVec w)) : BitVec w := l.foldr (· ^^^ ·) 0

@[simp] theorem xorAll_nil : xorAll ([] : List (BitVec w)) = 0 := rfl

@[simp] theorem xorAll_cons (a : BitVec w) (l : List (BitVec w)) : xorAll (a :: l) = a ^^^ xorAll l := rfl

/-- A loop that accumulates words with XOR. -/
theorem foldl_xor (f : α → BitVec w) (l : List α) (a : BitVec w) :
    l.foldl (fun acc i => acc ^^^ f i) a = a ^^^ xorAll (l.map f) := by
  induction l generalizing a with
  | nil => exact BitVec.xor_zero.symm
  | cons i l ih =>
    rw [List.foldl_cons, ih, List.map_cons, xorAll_cons, BitVec.xor_assoc]

theorem xorAll_map_xor (f g : α → BitVec w) (l : List α) :
    xorAll (l.map fun i => f i ^^^ g i) = xorAll (l.map f) ^^^ xorAll (l.map g) := by
  induction l with
  | nil => exact BitVec.xor_zero.symm
  | cons i l ih =>
    simp only [List.map_cons, xorAll_cons, ih]
    ac_rfl

/-- A word that is met an even number of times is gone. -/
theorem xorAll_map_const (c : BitVec w) {l : List α} (h : Even l.length) :
    xorAll (l.map fun _ => c) = 0 := by
  obtain ⟨n, hn⟩ := h
  induction n generalizing l with
  | zero => rw [List.length_eq_zero_iff.mp hn]; rfl
  | succ n ih =>
    obtain ⟨a, l, rfl⟩ := List.exists_cons_of_ne_nil (List.ne_nil_of_length_pos (by omega : 0 < l.length))
    obtain ⟨b, l, rfl⟩ := List.exists_cons_of_ne_nil
      (List.ne_nil_of_length_pos (by rw [List.length_cons] at hn; omega : 0 < l.length))
    have hl : l.length = n + n := by
      simp only [List.length_cons] at hn
      omega
    simp only [List.map_cons, xorAll_cons, ih hl]
    rw [← BitVec.xor_assoc, BitVec.xor_self]
    exact BitVec.xor_zero

theorem xorAll_eq_zero {l : List (BitVec w)} (h : ∀ a ∈ l, a = 0) : xorAll l = 0 := by
  induction l with
  | nil => rfl
  | cons a l ih =>
    rw [xorAll_cons, h a List.mem_cons_self, ih fun b hb => h b (List.mem_cons_of_mem a hb)]
    exact BitVec.xor_zero

/-- If all words but one are zero, that one is left. -/
theorem xorAll_map_single [DecidableEq α] {f : α → BitVec w} {l : List α} (hnodup : l.Nodup) {j : α}
    (hj : j ∈ l) (h : ∀ i ∈ l, i ≠ j → f i = 0) : xorAll (l.map f) = f j := by
  induction l with
  | nil => cases hj
  | cons i l ih =>
    rw [List.nodup_cons] at hnodup
    rw [List.map_cons, xorAll_cons]
    by_cases hij : i = j
    · subst hij
      have hrest : xorAll (l.map f) = 0 := by
        refine xorAll_eq_zero ?_
        intro a ha
        obtain ⟨k, hk, rfl⟩ := List.mem_map.mp ha
        exact h k (List.mem_cons_of_mem i hk) fun hki => hnodup.1 (hki ▸ hk)
      rw [hrest]
      exact BitVec.xor_zero
    · have hmem : j ∈ l := (List.mem_cons.mp hj).resolve_left (Ne.symm hij)
      rw [h i List.mem_cons_self hij, ih hnodup.2 hmem fun k hk => h k (List.mem_cons_of_mem i hk)]
      exact BitVec.zero_xor

end Schism.Bits
