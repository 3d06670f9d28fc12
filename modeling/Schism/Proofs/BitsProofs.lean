import Mathlib

/-!
# Bit fields as numbers

Masks, shifts and concatenations of machine words, as quotients and remainders of their values.
-/

namespace Schism.Bits

variable {v w : ℕ}

/-- A shifted and masked field. -/
theorem toNat_field (x : BitVec v) (k w : ℕ) (hw : w < v) :
    ((x >>> k) &&& BitVec.ofNat v (2 ^ w - 1)).toNat = x.toNat / 2 ^ k % 2 ^ w := by
  have hpos : 0 < 2 ^ w := Nat.two_pow_pos w
  have hlt : 2 ^ w < 2 ^ v := Nat.pow_lt_pow_right (by decide) hw
  rw [BitVec.toNat_and, BitVec.toNat_ushiftRight, BitVec.toNat_ofNat, Nat.mod_eq_of_lt (by omega),
    Nat.and_two_pow_sub_one_eq_mod, Nat.shiftRight_eq_div_pow]

/-- The low bits of a word. -/
theorem toNat_and_ones (x : BitVec v) (w : ℕ) (hw : w < v) :
    (x &&& BitVec.ofNat v (2 ^ w - 1)).toNat = x.toNat % 2 ^ w := by
  have h := toNat_field x 0 w hw
  rwa [BitVec.ushiftRight_zero, pow_zero, Nat.div_one] at h

theorem toNat_append_add (x : BitVec v) (y : BitVec w) :
    (x ++ y).toNat = x.toNat * 2 ^ w + y.toNat := by
  rw [BitVec.toNat_append, ← Nat.shiftLeft_add_eq_or_of_lt y.isLt, Nat.shiftLeft_eq]

/-- A field that is masked in place. -/
theorem and_ones_mul (n k w : ℕ) :
    n &&& (2 ^ w - 1) * 2 ^ k = n / 2 ^ k % 2 ^ w * 2 ^ k := by
  apply Nat.eq_of_testBit_eq
  intro i
  rw [Nat.testBit_and, Nat.testBit_mul_two_pow, Nat.testBit_mul_two_pow, Nat.testBit_two_pow_sub_one,
    Nat.testBit_mod_two_pow, Nat.testBit_div_two_pow]
  by_cases hi : k ≤ i
  · rw [Nat.sub_add_cancel hi]
    simp [hi, Bool.and_comm]
  · simp [hi]

/-- Stepping to the next of a row of words. -/
theorem add_one_ofNat (x : BitVec v) (i : ℕ) :
    x + 1 + BitVec.ofNat v i = x + BitVec.ofNat v (i + 1) := by
  rw [BitVec.add_assoc, Nat.add_comm i, BitVec.ofNat_add]
  rfl

end Schism.Bits
