import Schism.Vcpu

/-!
# The world switch in assembly (`arch/arm64/vectors_el2.S`, `arch/arm64/switch_el2.S`)

`el2_vector_save` is the save path of `el2_vector_common`, taken when `current_trapframe` is set;
`vcpu_switch_asm` loads the next guest and returns to it. Both follow the instructions one by one,
with the slot offsets of the source. The host's callee-saved registers, which the same code parks in
`host_saved_area`, are not part of the state.
-/

namespace Schism

/-- `ldp a, b, [tf, #(8 * k)]`. -/
def Machine.ldp (m : Machine) (tf : Trapframe) (a b : Fin 31) (k : ℕ) : Machine :=
  (m.setX a (tf.ldr k)).setX b (tf.ldr (k + 1))

/-- The stores of `el2_vector_common` into the trapframe that `x16` points at. -/
def el2_vector_save (code : U64) (m : Machine) (tf : Trapframe) : Trapframe :=
  -- `SLOT` pushed the guest's `x16`, `el2_vector_common` then pushed the vector code
  let stack : List U64 := [code, m.x 16]
  let tf := tf.stp 0 (m.x 0) (m.x 1)
  let tf := tf.stp 2 (m.x 2) (m.x 3)
  let tf := tf.stp 4 (m.x 4) (m.x 5)
  let tf := tf.stp 6 (m.x 6) (m.x 7)
  let tf := tf.stp 8 (m.x 8) (m.x 9)
  let tf := tf.stp 10 (m.x 10) (m.x 11)
  let tf := tf.stp 12 (m.x 12) (m.x 13)
  let tf := tf.stp 14 (m.x 14) (m.x 15)
  let x0 := stack.getD 1 0  -- `ldr x0, [sp, #16]`
  let tf := tf.stp 16 x0 (m.x 17)
  let tf := tf.stp 18 (m.x 18) (m.x 19)
  let tf := tf.stp 20 (m.x 20) (m.x 21)
  let tf := tf.stp 22 (m.x 22) (m.x 23)
  let tf := tf.stp 24 (m.x 24) (m.x 25)
  let tf := tf.stp 26 (m.x 26) (m.x 27)
  let tf := tf.stp 28 (m.x 28) (m.x 29)
  let tf := tf.str 30 (m.x 30)
  let tf := tf.str 31 (m.mrs .SP_EL1)
  let tf := tf.str 32 (m.mrs .ELR_EL2)
  let tf := tf.str 33 (m.mrs .SPSR_EL2)
  let tf := tf.stp 34 (m.mrs .TTBR0_EL1) (m.mrs .TTBR1_EL1)
  let tf := tf.stp 36 (m.mrs .TCR_EL1) (m.mrs .SCTLR_EL1)
  let tf := tf.stp 38 (m.mrs .TPIDR_EL1) (m.mrs .CNTKCTL_EL1)
  -- `CNTP_CVAL` is stored as a virtual count
  let tf := tf.stp 40 (m.mrs .CNTP_CTL_EL0) (m.mrs .CNTP_CVAL_EL0 + m.mrs .CNTVOFF_EL2)
  tf.stp 42 (m.mrs .CNTV_CTL_EL0) (m.mrs .CNTV_CVAL_EL0)

/-- `vcpu_switch_asm(tf)` up to its `eret`. -/
def vcpu_switch_asm (m : Machine) (tf : Trapframe) : Machine :=
  let m := m.msr .SP_EL1 (tf.ldr 31)
  let m := m.msr .ELR_EL2 (tf.ldr 32)
  let m := m.msr .SPSR_EL2 (tf.ldr 33)
  let m := m.msr .TTBR0_EL1 (tf.ldr 34)
  let m := m.msr .TTBR1_EL1 (tf.ldr 35)
  let m := m.msr .TCR_EL1 (tf.ldr 36)
  let m := m.msr .SCTLR_EL1 (tf.ldr 37)
  let m := m.msr .TPIDR_EL1 (tf.ldr 38)
  let m := m.msr .CNTKCTL_EL1 (tf.ldr 39)
  -- the virtual compare value is converted to the physical counter domain
  let x3 := m.mrs .CNTVOFF_EL2
  let m := m.msr .CNTP_CVAL_EL0 (tf.ldr 41 - x3)
  let m := m.msr .CNTP_CTL_EL0 (tf.ldr 40 &&& 0x3)
  let m := m.msr .CNTV_CVAL_EL0 (tf.ldr 43)
  let m := m.msr .CNTV_CTL_EL0 (tf.ldr 42 &&& 0x3)
  let m := m.ldp tf 1 2 1
  let m := m.ldp tf 3 4 3
  let m := m.ldp tf 5 6 5
  let m := m.ldp tf 7 8 7
  let m := m.ldp tf 9 10 9
  let m := m.ldp tf 11 12 11
  let m := m.ldp tf 13 14 13
  let m := m.ldp tf 15 16 15
  let m := m.ldp tf 17 18 17
  let m := m.ldp tf 19 20 19
  let m := m.ldp tf 21 22 21
  let m := m.ldp tf 23 24 23
  let m := m.ldp tf 25 26 25
  let m := m.ldp tf 27 28 27
  let m := m.ldp tf 29 30 29
  m.setX 0 (tf.ldr 0)

end Schism
