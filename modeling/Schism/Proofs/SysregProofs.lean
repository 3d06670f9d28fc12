import Schism.Proofs.EsrProofs
import Schism.Proofs.TrapProofs

/-!
# Which accesses the timer handler tells apart

The handler knows a trapped register by its packed number and a trapped access by three fields of the
syndrome. Two defects of the packing show here: `CRm` and `op2` overlap, so some registers share a
number (`timer_dispatch_exact_iff`), and the direction is a bit of `op0`, so that no syndrome is a write
to a timer (`timer_access_emulated_iff`).
-/

namespace Schism

open Bits

/-! ## Registers that share a number -/

/-- The name of a system register, in the widths that `esr_sys64_sysreg` extracts. -/
structure SysRegName where
  op0 : BitVec 2
  op1 : BitVec 4
  crn : BitVec 4
  crm : BitVec 4
  op2 : BitVec 3
deriving DecidableEq

namespace SysRegName

def encode (n : SysRegName) : U32 :=
  SYS_REG_ENCODE (n.op0.setWidth 32) (n.op1.setWidth 32) (n.crn.setWidth 32) (n.crm.setWidth 32)
    (n.op2.setWidth 32)

/-- The name that `esr_sys64_sysreg` extracts. -/
def ofEsr (esr : U64) : SysRegName where
  op0 := esr.extractLsb' 20 2
  op1 := esr.extractLsb' 16 4
  crn := esr.extractLsb' 12 4
  crm := esr.extractLsb' 8 4
  op2 := esr.extractLsb' 5 3

/-- The name packs to the number of a timer register without being its name. -/
def Aliased (n : SysRegName) : Prop :=
  n.op0 = 3 ∧ n.op1 = 3 ∧ n.crn = 14 ∧ (n.crm = 2 ∨ n.crm = 3) ∧ (n.op2 = 4 ∨ n.op2 = 5 ∨ n.op2 = 6)

instance (n : SysRegName) : Decidable n.Aliased := inferInstanceAs (Decidable (_ ∧ _))

theorem encode_toNat (n : SysRegName) : n.encode.toNat = n.op0.toNat * 2 ^ 14 + n.op1.toNat * 2 ^ 10 +
    n.crn.toNat * 2 ^ 6 + encodeLow n.crm.toNat n.op2.toNat := by
  have hw : ∀ {w : ℕ} (v : BitVec w), w ≤ 32 → (v.setWidth 32).toNat = v.toNat := by
    intro w v hw
    rw [BitVec.toNat_setWidth, Nat.mod_eq_of_lt]
    exact lt_of_lt_of_le v.isLt (Nat.pow_le_pow_right (by decide) hw)
  have h0 := n.op0.isLt
  have h1 := n.op1.isLt
  have hn := n.crn.isLt
  have hm := n.crm.isLt
  have h2 := n.op2.isLt
  rw [encode, SYS_REG_ENCODE_toNat] <;> simp only [hw _ (show 2 ≤ 32 by decide),
    hw _ (show 3 ≤ 32 by decide), hw _ (show 4 ≤ 32 by decide)] <;> omega

theorem esr_sys64_sysreg_eq (esr : U64) : esr_sys64_sysreg esr = (ofEsr esr).encode := by
  have hfield : ∀ k w : ℕ, (esr.extractLsb' k w).toNat = esr.toNat / 2 ^ k % 2 ^ w := by
    intro k w
    rw [BitVec.extractLsb'_toNat, Nat.shiftRight_eq_div_pow]
  apply BitVec.eq_of_toNat_eq
  rw [esr_sys64_sysreg_toNat, encode_toNat]
  simp only [ofEsr, hfield]
  rfl

/-- The lowest six bits of a number, as a sum. -/
theorem encodeLow_eq : ∀ crm < 16, ∀ op2 < 8, encodeLow crm op2 =
    crm / 2 * 8 + (if crm % 2 = 1 ∨ 4 ≤ op2 then 4 else 0) + op2 % 4 := by
  decide

/-- Two names have the same number exactly when they agree in everything but bit 2, which is set in
both or in neither. -/
theorem encode_eq_iff (n n' : SysRegName) : n'.encode = n.encode ↔
    n'.op0 = n.op0 ∧ n'.op1 = n.op1 ∧ n'.crn = n.crn ∧
      n'.crm.toNat / 2 = n.crm.toNat / 2 ∧ n'.op2.toNat % 4 = n.op2.toNat % 4 ∧
      (n'.crm.toNat % 2 = 1 ∨ 4 ≤ n'.op2.toNat ↔ n.crm.toNat % 2 = 1 ∨ 4 ≤ n.op2.toNat) := by
  have hm := n.crm.isLt
  have h2 := n.op2.isLt
  have hm' := n'.crm.isLt
  have h2' := n'.op2.isLt
  have h1 := n.op1.isLt
  have h1' := n'.op1.isLt
  have hn := n.crn.isLt
  have hn' := n'.crn.isLt
  rw [← BitVec.toNat_inj, encode_toNat, encode_toNat, encodeLow_eq _ hm _ h2, encodeLow_eq _ hm' _ h2',
    ← BitVec.toNat_inj, ← BitVec.toNat_inj, ← BitVec.toNat_inj]
  split_ifs <;> omega

theorem ext_toNat {n n' : SysRegName} (h0 : n'.op0 = n.op0) (h1 : n'.op1 = n.op1) (hn : n'.crn = n.crn)
    (hm : n'.crm.toNat = n.crm.toNat) (h2 : n'.op2.toNat = n.op2.toNat) : n' = n := by
  cases n
  cases n'
  simp only [mk.injEq]
  exact ⟨h0, h1, hn, BitVec.eq_of_toNat_eq hm, BitVec.eq_of_toNat_eq h2⟩

/-- A name is alone with its number exactly when bit 2 of the number is clear. -/
theorem encode_unique_iff (n : SysRegName) :
    (∀ n', n'.encode = n.encode → n' = n) ↔ n.crm.toNat % 2 = 0 ∧ n.op2.toNat < 4 := by
  have h2 := n.op2.isLt
  have hm := n.crm.isLt
  constructor
  · intro huniq
    by_contra hbit
    -- bit 2 can be moved between the two fields
    have hset : n.crm.toNat % 2 = 1 ∨ 4 ≤ n.op2.toNat := by omega
    have hcrm : (BitVec.ofNat 4 (n.crm.toNat / 2 * 2 + 1)).toNat = n.crm.toNat / 2 * 2 + 1 := by
      rw [BitVec.toNat_ofNat]
      omega
    have hop2 : ∀ b < 2, (BitVec.ofNat 3 (n.op2.toNat % 4 + 4 * b)).toNat = n.op2.toNat % 4 + 4 * b := by
      intro b hb
      rw [BitVec.toNat_ofNat]
      omega
    have hlow := huniq { n with crm := BitVec.ofNat 4 (n.crm.toNat / 2 * 2 + 1)
                                op2 := BitVec.ofNat 3 (n.op2.toNat % 4 + 4 * 0) }
      ((encode_eq_iff _ _).mpr ⟨rfl, rfl, rfl, by simp only [hcrm]; omega,
        by simp only [hop2 0 (by decide)]; omega, by simp only [hcrm]; omega⟩)
    have hhigh := huniq { n with crm := BitVec.ofNat 4 (n.crm.toNat / 2 * 2 + 1)
                                 op2 := BitVec.ofNat 3 (n.op2.toNat % 4 + 4 * 1) }
      ((encode_eq_iff _ _).mpr ⟨rfl, rfl, rfl, by simp only [hcrm]; omega,
        by simp only [hop2 1 (by decide)]; omega, by simp only [hcrm]; omega⟩)
    have hsame := congrArg (fun m : SysRegName => m.op2.toNat) (hlow.trans hhigh.symm)
    simp only [hop2 0 (by decide), hop2 1 (by decide)] at hsame
    omega
  · rintro ⟨heven, hlt⟩ n' he
    obtain ⟨e0, e1, en, em, e2, ebit⟩ := (encode_eq_iff n n').mp he
    have h2' := n'.op2.isLt
    exact ext_toNat e0 e1 en (by omega) (by omega)

end SysRegName

/-- The name of a timer register. -/
def TimerReg.name : TimerReg → SysRegName
  | .CNTPCT_EL0 => ⟨3, 3, 14, 0, 1⟩
  | .CNTVCT_EL0 => ⟨3, 3, 14, 0, 2⟩
  | .CNTP_TVAL_EL0 => ⟨3, 3, 14, 2, 0⟩
  | .CNTP_CTL_EL0 => ⟨3, 3, 14, 2, 1⟩
  | .CNTP_CVAL_EL0 => ⟨3, 3, 14, 2, 2⟩
  | .CNTV_TVAL_EL0 => ⟨3, 3, 14, 3, 0⟩
  | .CNTV_CTL_EL0 => ⟨3, 3, 14, 3, 1⟩
  | .CNTV_CVAL_EL0 => ⟨3, 3, 14, 3, 2⟩

theorem TimerReg.sys_eq (reg : TimerReg) : reg.sys = reg.name.encode := by
  cases reg <;> rfl

theorem timerCase_eq_some_iff {v : U32} {reg : TimerReg} : timerCase v = some reg ↔ v = reg.sys := by
  constructor
  · intro h
    exact (by simpa using List.find?_some h : reg.sys = v).symm
  · rintro rfl
    cases reg <;> decide

/-- The names with the number of a timer register are its own and, for the virtual timer, the aliased
ones. -/
theorem encode_eq_timer {n : SysRegName} {reg : TimerReg} (h : n.encode = reg.sys) :
    n = reg.name ∨ n.Aliased := by
  rw [reg.sys_eq] at h
  obtain ⟨h0, h1, hn, hm, h2, hbit⟩ := (SysRegName.encode_eq_iff reg.name n).mp h
  have hlt := n.op2.isLt
  by_cases hown : n = reg.name
  · exact Or.inl hown
  · refine Or.inr ?_
    have hne : ¬ (n.crm.toNat = reg.name.crm.toNat ∧ n.op2.toNat = reg.name.op2.toNat) := by
      rintro ⟨em, e2⟩
      exact hown (SysRegName.ext_toNat h0 h1 hn em e2)
    simp only [SysRegName.Aliased, ← BitVec.toNat_inj]
    rw [h0, h1, hn]
    cases reg <;> simp [TimerReg.name] at hm h2 hbit hne ⊢ <;> omega

/-- An aliased name has the number of a virtual timer register. -/
theorem SysRegName.Aliased.exists_timerCase {n : SysRegName} (h : n.Aliased) :
    ∃ reg, timerCase n.encode = some reg ∧ n ≠ reg.name := by
  obtain ⟨op0, op1, crn, crm, op2⟩ := n
  rcases h with ⟨rfl, rfl, rfl, rfl | rfl, rfl | rfl | rfl⟩
  · exact ⟨.CNTV_TVAL_EL0, by decide, by decide⟩
  · exact ⟨.CNTV_CTL_EL0, by decide, by decide⟩
  · exact ⟨.CNTV_CVAL_EL0, by decide, by decide⟩
  · exact ⟨.CNTV_TVAL_EL0, by decide, by decide⟩
  · exact ⟨.CNTV_CTL_EL0, by decide, by decide⟩
  · exact ⟨.CNTV_CVAL_EL0, by decide, by decide⟩

/-- The handler enters only the case of the register that the syndrome names, unless the name is one of
the six aliases of the virtual timer's registers; and `SYS_REG_ENCODE` gives a name a number of its own
exactly when `CRm` is even and `op2` is below 4. -/
theorem timer_dispatch_exact_iff (esr : U64) (n : SysRegName) :
    ((∀ reg, timerCase (esr_sys64_sysreg esr) = some reg → SysRegName.ofEsr esr = reg.name) ↔
      ¬ (SysRegName.ofEsr esr).Aliased) ∧
    ((∀ n' : SysRegName, n'.encode = n.encode → n' = n) ↔
      n.crm.toNat % 2 = 0 ∧ n.op2.toNat < 4) := by
  refine ⟨?_, n.encode_unique_iff⟩
  rw [SysRegName.esr_sys64_sysreg_eq]
  constructor
  · intro hexact halias
    obtain ⟨reg, hcase, hne⟩ := halias.exists_timerCase
    exact hne (hexact reg hcase)
  · intro hno reg hcase
    exact (encode_eq_timer (timerCase_eq_some_iff.mp hcase)).resolve_right hno

/-- The syndrome of `S3_3_C14_C2_4`, which is emulated as `CNTV_TVAL_EL0`. -/
theorem timer_dispatch_aliased :
    (esr_ec 0x6033e280 = 0x18 ∧
      timerCase (esr_sys64_sysreg 0x6033e280) = some .CNTV_TVAL_EL0 ∧
      SysRegName.ofEsr 0x6033e280 = ⟨3, 3, 14, 2, 4⟩) ∧
    ¬ (∀ esr, esr_ec esr = 0x18 → ∀ reg, timerCase (esr_sys64_sysreg esr) = some reg →
      SysRegName.ofEsr esr = reg.name) ∧
    ¬ Function.Injective SysRegName.encode := by
  refine ⟨⟨by decide, by decide, by decide⟩, ?_, ?_⟩
  · intro hall
    exact absurd (hall 0x6033e280 (by decide) .CNTV_TVAL_EL0 (by decide)) (by decide)
  · intro hinj
    have hsame : SysRegName.encode ⟨3, 3, 14, 2, 4⟩ = SysRegName.encode ⟨3, 3, 14, 3, 0⟩ := by decide
    exact absurd (hinj hsame) (by decide)

/-! ## The direction of an access -/

/-- The three extractors take the syndrome for an access to `reg` with the given register number and
direction. -/
structure DecodesAs (esr : U64) (reg : TimerReg) (rt : Fin 32) (read : Bool) : Prop where
  ec : esr_ec esr = 0x18
  sysreg : esr_sys64_sysreg esr = reg.sys
  rt : esr_sys64_rt esr = BitVec.ofNat 32 rt
  direction : esr_sys64_is_read esr = read

/-- The value `v` that a guest writes at virtual time `now` is in the frame and in the hardware; the
counters cannot be written. -/
def TimerWritten (p : VcpuPtr) (v now : U64) (s s' : State) : TimerReg → Prop
  | .CNTPCT_EL0 | .CNTVCT_EL0 => True
  | .CNTP_CVAL_EL0 => (s'.vcpu p).arch.tf.cntp_cval_el0 = v ∧
    s'.m.sys .CNTP_CVAL_EL0 = v - (s.vcpu p).arch.cntvoff_el2
  | .CNTP_CTL_EL0 => (s'.vcpu p).arch.tf.cntp_ctl_el0 = v &&& 0x3 ∧
    s'.m.sys .CNTP_CTL_EL0 = v &&& 0x3
  | .CNTP_TVAL_EL0 => (s'.vcpu p).arch.tf.cntp_cval_el0 = now + sext32 v ∧
    s'.m.sys .CNTP_CVAL_EL0 = now + sext32 v - (s.vcpu p).arch.cntvoff_el2
  | .CNTV_CVAL_EL0 => (s'.vcpu p).arch.tf.cntv_cval_el0 = v ∧ s'.m.sys .CNTV_CVAL_EL0 = v
  | .CNTV_CTL_EL0 => (s'.vcpu p).arch.tf.cntv_ctl_el0 = v &&& 0x3 ∧
    s'.m.sys .CNTV_CTL_EL0 = v &&& 0x3
  | .CNTV_TVAL_EL0 => (s'.vcpu p).arch.tf.cntv_cval_el0 = now + sext32 v ∧
    s'.m.sys .CNTV_CVAL_EL0 = now + sext32 v

/-- Some syndrome stands for the access, and for a write `el2_exception_common` then stores whatever
value the guest has in the register. -/
structure AccessEmulated (reg : TimerReg) (rt : Fin 32) (read : Bool) : Prop where
  decoded : ∃ esr, DecodesAs esr reg rt read
  stored : read = false → ∀ (s : State) (p : VcpuPtr), s.sched.current = some p →
    ∀ elr spsr far code, ∃ esr s', DecodesAs esr reg rt read ∧
      el2_exception_common esr elr spsr far code s = .returned s' ∧
      TimerWritten p (s.gpr p (BitVec.ofNat 32 rt)) s.elapse.m.cntvct s s' reg

/-- The write branches store the value. -/
theorem timerReturn_written {esr : U64} (hwrite : esr_sys64_is_read esr = false) (p : VcpuPtr)
    (reg : TimerReg) (elr : U64) (s : State) :
    TimerWritten p (s.gpr p (esr_sys64_rt esr)) s.elapse.m.cntvct s (timerReturn p reg esr elr s)
      reg := by
  have hgpr : s.elapse.gpr p (esr_sys64_rt esr) = s.gpr p (esr_sys64_rt esr) := rfl
  have hvcpu : s.elapse.vcpu = s.vcpu := rfl
  rw [timerReturn, hwrite]
  cases reg <;> simp [TimerWritten, advance_guest_elr, emulate_timer, State.onTf, State.msr,
    Machine.msr_sys, hgpr, hvcpu]

theorem el2_exception_common_timer {esr : U64} {reg : TimerReg} {s : State} {p : VcpuPtr}
    (hec : esr_ec esr = 0x18) (hreg : esr_sys64_sysreg esr = reg.sys) (hp : s.sched.current = some p)
    (elr spsr far code : U64) :
    el2_exception_common esr elr spsr far code s = .returned (timerReturn p reg esr elr s) := by
  have hcase : timerCase (esr_sys64_sysreg esr) = some reg := timerCase_eq_some_iff.mpr hreg
  have hne1 : ¬ esr_ec esr = 0x01 := by
    rw [hec]
    decide
  have hne2 : ¬ esr_ec esr = 0x16 := by
    rw [hec]
    decide
  simp only [el2_exception_common, if_neg hne1, if_neg hne2, if_pos hec, handle_timer_sysreg,
    handle_timer_sysreg_result, hp, hcase]
  rfl

/-- Only the decoding stands between a guest and the write branches. -/
theorem accessEmulated_iff_decoded (reg : TimerReg) (rt : Fin 32) (read : Bool) :
    AccessEmulated reg rt read ↔ ∃ esr, DecodesAs esr reg rt read := by
  constructor
  · intro h
    exact h.decoded
  · rintro ⟨esr, h⟩
    refine ⟨⟨esr, h⟩, ?_⟩
    rintro rfl s p hp elr spsr far code
    refine ⟨esr, _, h, el2_exception_common_timer h.ec h.sysreg hp elr spsr far code, ?_⟩
    rw [← h.rt]
    exact timerReturn_written h.direction p reg elr s

/-- The syndrome with the fields where the extractors look for them. -/
def readEsr (reg : TimerReg) (rt : Fin 32) : U64 :=
  BitVec.ofNat 64 (0x18 * 2 ^ 26 + 3 * 2 ^ 20 + 3 * 2 ^ 16 + 14 * 2 ^ 12 + reg.name.crm.toNat * 2 ^ 8 +
    reg.name.op2.toNat * 2 ^ 5 + rt)

theorem readEsr_decodes (reg : TimerReg) (rt : Fin 32) : DecodesAs (readEsr reg rt) reg rt true := by
  have hall : ∀ rt : Fin 32, esr_ec (readEsr reg rt) = 0x18 ∧
      esr_sys64_sysreg (readEsr reg rt) = reg.sys ∧
      esr_sys64_rt (readEsr reg rt) = BitVec.ofNat 32 rt ∧
      esr_sys64_is_read (readEsr reg rt) = true := by
    cases reg <;> decide
  obtain ⟨hec, hsysreg, hrt, hdir⟩ := hall rt
  exact ⟨hec, hsysreg, hrt, hdir⟩

theorem not_decodes_write {esr : U64} {reg : TimerReg} {rt : Fin 32} : ¬ DecodesAs esr reg rt false := by
  intro h
  have hread := esr_sys64_is_read_of_timerCase (timerCase_eq_some_iff.mpr h.sysreg)
  rw [h.direction] at hread
  exact Bool.noConfusion hread

/-- For each timer register and each general-purpose register, the access is decodable and emulated
exactly when it is a read: the direction is taken from the upper bit of `op0`, which is set in the name
of every timer register. -/
theorem timer_access_emulated_iff (reg : TimerReg) (rt : Fin 32) (read : Bool) :
    AccessEmulated reg rt read ↔ read = true := by
  rw [accessEmulated_iff_decoded]
  constructor
  · rintro ⟨esr, h⟩
    cases read with
    | true => rfl
    | false => exact absurd h not_decodes_write
  · rintro rfl
    exact ⟨readEsr reg rt, readEsr_decodes reg rt⟩

/-- A guest cannot set its physical timer from `x0`. -/
theorem cntp_cval_write_undecodable : ¬ AccessEmulated .CNTP_CVAL_EL0 0 false := by
  rintro ⟨⟨esr, h⟩, -⟩
  exact not_decodes_write h

end Schism
