import Schism.Switch

/-!
# The save and the restore agree slot by slot

`el2_vector_save_eq` says what every field of the frame holds after an exit, `vcpu_switch_asm_sys`
and `vcpu_switch_asm_x` what every register holds after an entry.
-/

namespace Schism

/-- After the save path each field of the frame holds the register it is named after; the physical
compare value is held as a virtual count. -/
theorem el2_vector_save_eq (code : U64) (m : Machine) (tf : Trapframe) :
    el2_vector_save code m tf =
      { regs := m.x
        sp_el1 := m.sys .SP_EL1
        elr_el1 := m.sys .ELR_EL2
        spsr_el1 := m.sys .SPSR_EL2
        ttbr0_el1 := m.sys .TTBR0_EL1
        ttbr1_el1 := m.sys .TTBR1_EL1
        tcr_el1 := m.sys .TCR_EL1
        sctlr_el1 := m.sys .SCTLR_EL1
        tpidr_el1 := m.sys .TPIDR_EL1
        cntkctl_el1 := m.sys .CNTKCTL_EL1
        cntp_ctl_el0 := m.mrs .CNTP_CTL_EL0
        cntp_cval_el0 := m.sys .CNTP_CVAL_EL0 + m.sys .CNTVOFF_EL2
        cntv_ctl_el0 := m.mrs .CNTV_CTL_EL0
        cntv_cval_el0 := m.sys .CNTV_CVAL_EL0 } := by
  refine Trapframe.ext ?_ rfl rfl rfl rfl rfl rfl rfl rfl rfl rfl rfl rfl rfl
  funext i
  fin_cases i <;> rfl

/-- Every system register after `vcpu_switch_asm`. -/
theorem vcpu_switch_asm_sys (m : Machine) (tf : Trapframe) (r : SysReg) :
    (vcpu_switch_asm m tf).sys r = match r with
      | .SP_EL1 => tf.sp_el1
      | .ELR_EL2 => tf.elr_el1
      | .SPSR_EL2 => tf.spsr_el1
      | .TTBR0_EL1 => tf.ttbr0_el1
      | .TTBR1_EL1 => tf.ttbr1_el1
      | .TCR_EL1 => tf.tcr_el1
      | .SCTLR_EL1 => tf.sctlr_el1
      | .TPIDR_EL1 => tf.tpidr_el1
      | .CNTKCTL_EL1 => tf.cntkctl_el1
      | .CNTP_CVAL_EL0 => tf.cntp_cval_el0 - m.sys .CNTVOFF_EL2
      | .CNTP_CTL_EL0 => tf.cntp_ctl_el0 &&& 0x3
      | .CNTV_CVAL_EL0 => tf.cntv_cval_el0
      | .CNTV_CTL_EL0 => tf.cntv_ctl_el0 &&& 0x3
      | r => m.sys r := by
  cases r <;> rfl

/-- The general-purpose registers after `vcpu_switch_asm` are those of the frame. -/
theorem vcpu_switch_asm_x (m : Machine) (tf : Trapframe) : (vcpu_switch_asm m tf).x = tf.regs := by
  funext i
  fin_cases i <;> rfl

@[simp] theorem vcpu_switch_asm_q (m : Machine) (tf : Trapframe) :
    (vcpu_switch_asm m tf).q = m.q := by
  simp [vcpu_switch_asm, Machine.ldp]

@[simp] theorem vcpu_switch_asm_clock (m : Machine) (tf : Trapframe) :
    (vcpu_switch_asm m tf).clock = m.clock := by
  simp [vcpu_switch_asm, Machine.ldp]

@[simp] theorem vcpu_switch_asm_instant (m : Machine) (tf : Trapframe) :
    (vcpu_switch_asm m tf).instant = m.instant := by
  simp [vcpu_switch_asm, Machine.ldp]

@[simp] theorem vcpu_switch_asm_el2Readable (m : Machine) (tf : Trapframe) :
    (vcpu_switch_asm m tf).el2Readable = m.el2Readable := by
  simp [vcpu_switch_asm, Machine.ldp]

end Schism
