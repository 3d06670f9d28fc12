import Schism.Esr
import Schism.Proofs.BitsProofs

/-!
# The syndrome decoder against the architecture's encoding

Both sides are computed as numbers. The extractors read `Op1`, `CRn`, `CRm` and `Op2` as fields of
the register's encoding packed next to each other below `Op0`, `Rt` from the lowest five bits and
the direction from bit 21; the architecture places none of these fields there.
-/

namespace Schism

open Bits

/-! ## Encoding -/

/-- The architecture's syndrome as a sum of its fields. -/
theorem sys64Esr_toNat (a : Sys64Access) (rest : BitVec 42) :
    (sys64Esr a rest).toNat = rest.toNat * 2 ^ 22 + a.op0.toNat * 2 ^ 20 + a.op2.toNat * 2 ^ 17 +
      a.op1.toNat * 2 ^ 14 + a.crn.toNat * 2 ^ 10 + a.rt.toNat * 2 ^ 5 + a.crm.toNat * 2 +
      a.direction.toNat := by
  simp only [sys64Esr, toNat_append_add]
  ring

/-- The lowest six bits of an encoded register: `Op2` overlaps the lowest bit of `CRm`. -/
def encodeLow (crm op2 : ℕ) : ℕ := crm <<< 2 ||| op2

theorem encodeLow_lt {crm op2 : ℕ} (hm : crm < 16) (h2 : op2 < 8) : encodeLow crm op2 < 2 ^ 6 := by
  refine Nat.or_lt_two_pow ?_ (by omega)
  rw [Nat.shiftLeft_eq]
  omega

theorem SYS_REG_ENCODE_toNat {op0 op1 crn crm op2 : U32} (h0 : op0.toNat < 4) (h1 : op1.toNat < 16)
    (hn : crn.toNat < 16) (hm : crm.toNat < 16) (h2 : op2.toNat < 8) :
    (SYS_REG_ENCODE op0 op1 crn crm op2).toNat = op0.toNat * 2 ^ 14 + op1.toNat * 2 ^ 10 +
      crn.toNat * 2 ^ 6 + encodeLow crm.toNat op2.toNat := by
  have hlow := encodeLow_lt hm h2
  have hshift : ∀ (v : U32) (k : ℕ), v.toNat * 2 ^ k < 2 ^ 32 →
      (v <<< k).toNat = v.toNat <<< k := by
    intro v k hv
    rw [BitVec.toNat_shiftLeft, Nat.shiftLeft_eq, Nat.mod_eq_of_lt hv]
  have hcrn : crn.toNat <<< 6 ||| encodeLow crm.toNat op2.toNat =
      crn.toNat * 2 ^ 6 + encodeLow crm.toNat op2.toNat := by
    rw [← Nat.shiftLeft_add_eq_or_of_lt hlow, Nat.shiftLeft_eq]
  have hop1 : op1.toNat <<< 10 ||| (crn.toNat * 2 ^ 6 + encodeLow crm.toNat op2.toNat) =
      op1.toNat * 2 ^ 10 + (crn.toNat * 2 ^ 6 + encodeLow crm.toNat op2.toNat) := by
    rw [← Nat.shiftLeft_add_eq_or_of_lt (by omega), Nat.shiftLeft_eq]
  unfold SYS_REG_ENCODE
  rw [BitVec.or_assoc, BitVec.toNat_or, BitVec.toNat_or, BitVec.toNat_or, BitVec.toNat_or,
    hshift op0 14 (by omega), hshift op1 10 (by omega), hshift crn 6 (by omega),
    hshift crm 2 (by omega), Nat.or_assoc, Nat.or_assoc]
  rw [show crm.toNat <<< 2 ||| op2.toNat = encodeLow crm.toNat op2.toNat from rfl, hcrn, hop1,
    ← Nat.shiftLeft_add_eq_or_of_lt (by omega), Nat.shiftLeft_eq]
  omega

/-! ## The extractors -/

theorem esr_sys64_rt_toNat (esr : U64) : (esr_sys64_rt esr).toNat = esr.toNat % 2 ^ 5 := by
  have h : (esr &&& 0x1f).toNat = esr.toNat % 2 ^ 5 := toNat_and_ones esr 5 (by decide)
  rw [esr_sys64_rt, BitVec.toNat_setWidth, h]
  omega

theorem esr_sys64_is_read_eq (esr : U64) :
    esr_sys64_is_read esr = decide (esr.toNat / 2 ^ 21 % 2 = 1) := by
  have h : ((esr >>> 21) &&& 0x1).toNat = esr.toNat / 2 ^ 21 % 2 := toNat_field esr 21 1 (by decide)
  rw [esr_sys64_is_read, bne, Bool.eq_iff_iff, Bool.not_eq_true', beq_eq_false_iff_ne, ne_eq,
    ← BitVec.toNat_inj, h, decide_eq_true_iff]
  change ¬ esr.toNat / 2 ^ 21 % 2 = 0 ↔ esr.toNat / 2 ^ 21 % 2 = 1
  omega

theorem esr_sys64_sysreg_toNat (esr : U64) :
    (esr_sys64_sysreg esr).toNat = esr.toNat / 2 ^ 20 % 4 * 2 ^ 14 + esr.toNat / 2 ^ 16 % 16 * 2 ^ 10 +
      esr.toNat / 2 ^ 12 % 16 * 2 ^ 6 + encodeLow (esr.toNat / 2 ^ 8 % 16) (esr.toNat / 2 ^ 5 % 8) := by
  have hiss : (esr &&& 0x1ffffff).toNat = esr.toNat % 2 ^ 25 := toNat_and_ones esr 25 (by decide)
  have hfield : ∀ k w : ℕ, k + w ≤ 25 → w < 32 →
      ((((esr &&& 0x1ffffff) >>> k) &&& BitVec.ofNat 64 (2 ^ w - 1)).setWidth 32).toNat =
        esr.toNat / 2 ^ k % 2 ^ w := by
    intro k w hkw hw
    have hlt : esr.toNat / 2 ^ k % 2 ^ w < 2 ^ 32 :=
      lt_trans (Nat.mod_lt _ (by positivity)) (Nat.pow_lt_pow_right (by decide) hw)
    have hsplit : esr.toNat % 2 ^ 25 / 2 ^ k % 2 ^ w = esr.toNat / 2 ^ k % 2 ^ w := by
      rw [show 25 = k + (25 - k) by omega, pow_add, Nat.mod_mul_right_div_self,
        Nat.mod_mod_of_dvd _ (pow_dvd_pow 2 (by omega))]
    rw [BitVec.toNat_setWidth, toNat_field _ k w (by omega), hiss, hsplit, Nat.mod_eq_of_lt hlt]
  have h0 := hfield 20 2 (by decide) (by decide)
  have h1 := hfield 16 4 (by decide) (by decide)
  have hn := hfield 12 4 (by decide) (by decide)
  have hm := hfield 8 4 (by decide) (by decide)
  have h2 := hfield 5 3 (by decide) (by decide)
  unfold esr_sys64_sysreg
  have := SYS_REG_ENCODE_toNat (h0.trans_lt (Nat.mod_lt _ (by decide)))
    (h1.trans_lt (Nat.mod_lt _ (by decide))) (hn.trans_lt (Nat.mod_lt _ (by decide)))
    (hm.trans_lt (Nat.mod_lt _ (by decide))) (h2.trans_lt (Nat.mod_lt _ (by decide)))
  rw [h0, h1, hn, hm, h2] at this
  exact this

/-- The direction is read from the upper bit of `Op0`, which is set for every timer register: whatever
is recognised as a timer access is taken for a read. -/
theorem esr_sys64_is_read_of_timerCase {esr : U64} {reg : TimerReg}
    (h : timerCase (esr_sys64_sysreg esr) = some reg) : esr_sys64_is_read esr = true := by
  have hsys : reg.sys = esr_sys64_sysreg esr := by
    simpa using List.find?_some h
  have hop0 : reg.sys.toNat / 2 ^ 14 = 3 := by cases reg <;> decide
  have hlow := encodeLow_lt (Nat.mod_lt (esr.toNat / 2 ^ 8) (by decide : 0 < 16))
    (Nat.mod_lt (esr.toNat / 2 ^ 5) (by decide : 0 < 8))
  rw [hsys, esr_sys64_sysreg_toNat] at hop0
  rw [esr_sys64_is_read_eq, decide_eq_true_iff]
  omega

/-! ## When the decoder is right -/

/-- The accesses that the decoder recovers. -/
def Sys64Access.Decodable (a : Sys64Access) : Prop :=
  (a.op0.toNat < 2 ∧
    ((a.op1, a.crn, a.crm, a.op2, a.rt, a.direction) = (0, 0, 0, 0, 0, 0) ∨
      (a.op1, a.crn, a.crm, a.op2, a.rt, a.direction) = (5, 5, 5, 2, 10, 0))) ∨
  (2 ≤ a.op0.toNat ∧
    (a.op1, a.crn, a.crm, a.op2, a.rt, a.direction) = (7, 15, 15, 3, 31, 1))

/-- The conditions on the fields, as numbers, under which the three extractors agree with them. -/
def FieldsAgree (op0 op1 crn crm op2 rt dir : ℕ) : Prop :=
  op2 * 2 + op1 / 4 = op1 ∧ op1 % 4 * 4 + crn / 4 = crn ∧
    encodeLow (crn % 4 * 4 + rt / 8) (rt % 8) = encodeLow crm op2 ∧
    crm * 2 + dir = rt ∧ op0 / 2 = dir

/-- What the extractors find in a syndrome with the architecture's layout. -/
theorem extract_fields {n rest op0 op1 crn crm op2 rt dir : ℕ}
    (h : n = rest * 2 ^ 22 + op0 * 2 ^ 20 + op2 * 2 ^ 17 + op1 * 2 ^ 14 + crn * 2 ^ 10 + rt * 2 ^ 5 +
      crm * 2 + dir)
    (h0 : op0 < 2 ^ 2) (h1 : op1 < 2 ^ 3) (hn : crn < 2 ^ 4) (hm : crm < 2 ^ 4) (h2 : op2 < 2 ^ 3)
    (ht : rt < 2 ^ 5) (hd : dir < 2 ^ 1) :
    n / 2 ^ 20 % 4 = op0 ∧ n / 2 ^ 16 % 16 = op2 * 2 + op1 / 4 ∧
      n / 2 ^ 12 % 16 = op1 % 4 * 4 + crn / 4 ∧ n / 2 ^ 8 % 16 = crn % 4 * 4 + rt / 8 ∧
      n / 2 ^ 5 % 8 = rt % 8 ∧ n % 2 ^ 5 = crm * 2 + dir ∧ n / 2 ^ 21 % 2 = op0 / 2 := by
  refine ⟨?_, ?_, ?_, ?_, ?_, ?_, ?_⟩ <;> omega

theorem decodesTo_iff_fields (a : Sys64Access) (rest : BitVec 42) :
    DecodesTo (sys64Esr a rest) a ↔ FieldsAgree a.op0.toNat a.op1.toNat a.crn.toNat a.crm.toNat
      a.op2.toNat a.rt.toNat a.direction.toNat := by
  have h0 := a.op0.isLt
  have h1 := a.op1.isLt
  have hn := a.crn.isLt
  have hm := a.crm.isLt
  have h2 := a.op2.isLt
  have ht := a.rt.isLt
  have hd := a.direction.isLt
  have hesr := sys64Esr_toNat a rest
  have hw : ∀ {w : ℕ} (v : BitVec w), w ≤ 32 → (v.setWidth 32).toNat = v.toNat := by
    intro w v hw
    rw [BitVec.toNat_setWidth, Nat.mod_eq_of_lt]
    exact lt_of_lt_of_le v.isLt (Nat.pow_le_pow_right (by decide) hw)
  have henc : (SYS_REG_ENCODE (a.op0.setWidth 32) (a.op1.setWidth 32) (a.crn.setWidth 32)
      (a.crm.setWidth 32) (a.op2.setWidth 32)).toNat = a.op0.toNat * 2 ^ 14 + a.op1.toNat * 2 ^ 10 +
      a.crn.toNat * 2 ^ 6 + encodeLow a.crm.toNat a.op2.toNat := by
    rw [SYS_REG_ENCODE_toNat] <;> simp only [hw _ (show 2 ≤ 32 by decide), hw _ (show 3 ≤ 32 by decide),
      hw _ (show 4 ≤ 32 by decide)] <;> omega
  obtain ⟨e0, e1, en, em, e2, et, ed⟩ := extract_fields hesr h0 h1 hn hm h2 ht hd
  have hlow : encodeLow (a.crn.toNat % 4 * 4 + a.rt.toNat / 8) (a.rt.toNat % 8) < 2 ^ 6 :=
    encodeLow_lt (by omega) (by omega)
  have hlow' : encodeLow a.crm.toNat a.op2.toNat < 2 ^ 6 := encodeLow_lt (by omega) (by omega)
  have hdir : (a.direction == 1) = decide (a.direction.toNat = 1) := by
    rw [Bool.eq_iff_iff, beq_iff_eq, decide_eq_true_iff, ← BitVec.toNat_inj]
    rfl
  rw [DecodesTo, ← BitVec.toNat_inj, ← BitVec.toNat_inj, henc, esr_sys64_sysreg_toNat,
    esr_sys64_rt_toNat, esr_sys64_is_read_eq, hw _ (by decide), hdir, e0, e1, en, em, e2, et, ed,
    decide_eq_decide, FieldsAgree]
  constructor
  · rintro ⟨hreg, hrt, hread⟩
    refine ⟨?_, ?_, ?_, hrt, ?_⟩ <;> omega
  · rintro ⟨hop1, hcrn, hlow, hrt, hread⟩
    refine ⟨?_, hrt, ?_⟩ <;> omega

theorem high_solutions {op1 op2 crn : ℕ} (h1 : op1 < 8) (hn : crn < 16)
    (hop1 : op2 * 2 + op1 / 4 = op1) (hcrn : op1 % 4 * 4 + crn / 4 = crn) :
    (op1 = 0 ∧ op2 = 0 ∧ crn = 0) ∨ (op1 = 2 ∧ op2 = 1 ∧ crn = 10) ∨
      (op1 = 5 ∧ op2 = 2 ∧ crn = 5) ∨ (op1 = 7 ∧ op2 = 3 ∧ crn = 15) := by
  interval_cases op1 <;> omega

/-- `CRm` and the direction, once `Op1`, `CRn` and `Op2` are one of the four solutions of the first
two conditions. -/
theorem encodeLow_solutions : ∀ crm < 16, ∀ dir < 2,
    (encodeLow ((crm * 2 + dir) / 8) ((crm * 2 + dir) % 8) = encodeLow crm 0 ↔
      crm = 0 ∧ dir = 0) ∧
    ¬ encodeLow (8 + (crm * 2 + dir) / 8) ((crm * 2 + dir) % 8) = encodeLow crm 1 ∧
    (encodeLow (4 + (crm * 2 + dir) / 8) ((crm * 2 + dir) % 8) = encodeLow crm 2 ↔
      crm = 5 ∧ dir = 0) ∧
    (encodeLow (12 + (crm * 2 + dir) / 8) ((crm * 2 + dir) % 8) = encodeLow crm 3 ↔
      crm = 15 ∧ dir = 1) := by
  decide

theorem fieldsAgree_iff {op0 op1 crn crm op2 rt dir : ℕ} (h1 : op1 < 8) (hn : crn < 16)
    (hm : crm < 16) (hd : dir < 2) :
    FieldsAgree op0 op1 crn crm op2 rt dir ↔
      (op0 / 2 = 0 ∧ ((op1 = 0 ∧ crn = 0 ∧ crm = 0 ∧ op2 = 0 ∧ rt = 0 ∧ dir = 0) ∨
        (op1 = 5 ∧ crn = 5 ∧ crm = 5 ∧ op2 = 2 ∧ rt = 10 ∧ dir = 0))) ∨
      (op0 / 2 = 1 ∧ op1 = 7 ∧ crn = 15 ∧ crm = 15 ∧ op2 = 3 ∧ rt = 31 ∧ dir = 1) := by
  obtain ⟨s0, s1, s2, s3⟩ := encodeLow_solutions crm hm dir hd
  constructor
  · rintro ⟨hop1, hcrn, hlow, rfl, hread⟩
    rcases high_solutions h1 hn hop1 hcrn with
      ⟨rfl, rfl, rfl⟩ | ⟨rfl, rfl, rfl⟩ | ⟨rfl, rfl, rfl⟩ | ⟨rfl, rfl, rfl⟩
    · rw [Nat.zero_mod, Nat.zero_mul, Nat.zero_add, s0] at hlow
      omega
    · exact absurd hlow s1
    · have := s2.mp hlow
      omega
    · have := s3.mp hlow
      omega
  · rintro (⟨hread, ⟨rfl, rfl, rfl, rfl, rfl, rfl⟩ | ⟨rfl, rfl, rfl, rfl, rfl, rfl⟩⟩ |
      ⟨hread, rfl, rfl, rfl, rfl, rfl, rfl⟩)
    · exact ⟨rfl, rfl, rfl, rfl, hread⟩
    · exact ⟨rfl, rfl, rfl, rfl, hread⟩
    · exact ⟨rfl, rfl, rfl, rfl, hread⟩

/-- The decoder inverts the architecture's encoding on these accesses only. -/
theorem decodesTo_iff (a : Sys64Access) (rest : BitVec 42) :
    DecodesTo (sys64Esr a rest) a ↔ a.Decodable := by
  have h0 := a.op0.isLt
  rw [decodesTo_iff_fields, fieldsAgree_iff a.op1.isLt a.crn.isLt a.crm.isLt a.direction.isLt,
    Sys64Access.Decodable]
  simp only [Prod.mk.injEq, ← BitVec.toNat_inj]
  have hlo : a.op0.toNat / 2 = 0 ↔ a.op0.toNat < 2 := by omega
  have hhi : a.op0.toNat / 2 = 1 ↔ 2 ≤ a.op0.toNat := by omega
  rw [hlo, hhi]
  rfl

/-- A read of the virtual counter into `x0`. -/
def readVirtualCounter : Sys64Access where
  op0 := 3
  op1 := 3
  crn := 14
  crm := 0
  op2 := 2
  rt := 0
  direction := 1

/-- A trapped read of `CNTVCT_EL0` is decoded as something else. -/
theorem counter_read_misdecoded :
    ¬ ∀ (a : Sys64Access) (rest : BitVec 42), DecodesTo (sys64Esr a rest) a := by
  intro hall
  exact absurd (hall readVirtualCounter 0x188) (by decide)

end Schism
