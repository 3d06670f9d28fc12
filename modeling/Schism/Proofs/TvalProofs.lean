import Schism.Proofs.FrameLawProofs
import Schism.Proofs.SysregProofs

/-!
# The two views of a timer

`TVAL` is a signed 32-bit window on the distance between the compare value and the count. The write
branches treat it so; the read branches return the whole distance, which is the register's value only
for a deadline less than `2^32` ticks ahead (`tval_views_iff`).
-/

namespace Schism

/-- The timers of a guest. -/
inductive GuestTimer where
  | CNTP
  | CNTV
deriving DecidableEq

/-- Its `TVAL` register. -/
def GuestTimer.tval : GuestTimer → TimerReg
  | .CNTP => .CNTP_TVAL_EL0
  | .CNTV => .CNTV_TVAL_EL0

/-- Its compare value, as a virtual count. -/
def GuestTimer.compare (p : VcpuPtr) (s : State) : GuestTimer → U64
  | .CNTP => (s.vcpu p).arch.tf.cntp_cval_el0
  | .CNTV => s.m.sys .CNTV_CVAL_EL0

/-- A write of `TVAL` at any count `t` sets the compare value to `t` plus the signed 32-bit operand, in the
frame and in the hardware; a read at `now` returns the 32-bit register. -/
structure TvalViews (timer : GuestTimer) (p : VcpuPtr) (s : State) (now : U64) : Prop where
  write : ∀ rt t, TimerWritten p (s.gpr p rt) t s (emulate_timer p timer.tval false rt t s) timer.tval
  write_compare : ∀ rt t, timer.compare p (emulate_timer p timer.tval false rt t s) =
    t + ((s.gpr p rt).setWidth 32).signExtend 64
  read : ∀ i : Fin 31, ((emulate_timer p timer.tval true (BitVec.ofNat 32 i) now s).vcpu p).arch.tf.regs i =
    ((timer.compare p s - now).setWidth 32).setWidth 64

section Views

variable {timer : GuestTimer} {p : VcpuPtr} {s : State}

theorem emulate_tval_write (rt : U32) (t : U64) :
    TimerWritten p (s.gpr p rt) t s (emulate_timer p timer.tval false rt t s) timer.tval := by
  cases timer <;> simp [TimerWritten, GuestTimer.tval, emulate_timer, State.msr]

theorem emulate_tval_write_compare (rt : U32) (t : U64) :
    timer.compare p (emulate_timer p timer.tval false rt t s) =
      t + ((s.gpr p rt).setWidth 32).signExtend 64 := by
  have hwritten : TimerWritten p (s.gpr p rt) t s (emulate_timer p timer.tval false rt t s) timer.tval :=
    emulate_tval_write rt t
  cases timer with
  | CNTP => exact hwritten.1
  | CNTV => exact hwritten.2

theorem setReg_regs_self (tf : Trapframe) (i : Fin 31) (v : U64) :
    (tf.setReg (BitVec.ofNat 32 i) v).regs i = v := by
  have hi := i.isLt
  have hval : (BitVec.ofNat 32 i.val).toNat = i.val := by
    rw [BitVec.toNat_ofNat]
    omega
  have hlt : (BitVec.ofNat 32 i.val).toNat < 31 := by
    rw [hval]
    exact hi
  have hidx : (⟨(BitVec.ofNat 32 i.val).toNat, hlt⟩ : Fin 31) = i := Fin.ext hval
  simp only [Trapframe.setReg, hlt, dif_pos, hidx, Function.update_self]

/-- A read returns all 64 bits of the distance. -/
theorem emulate_tval_read (i : Fin 31) (now : U64) :
    ((emulate_timer p timer.tval true (BitVec.ofNat 32 i) now s).vcpu p).arch.tf.regs i =
      timer.compare p s - now := by
  cases timer with
  | CNTP =>
    simp only [GuestTimer.tval, emulate_timer, setGpr_tf, setReg_regs_self]
    rfl
  | CNTV =>
    simp only [GuestTimer.tval, emulate_timer, setGpr_tf, setReg_regs_self]
    rfl

/-- A doubleword is its lower half exactly when the upper half is clear. -/
theorem eq_lower_half_iff (d : U64) : d = (d.setWidth 32).setWidth 64 ↔ d.toNat < 2 ^ 32 := by
  have hd := d.isLt
  rw [← BitVec.toNat_inj, BitVec.toNat_setWidth, BitVec.toNat_setWidth]
  omega

end Views

/-- For both timers, every compare value, operand and count, the emulated `TVAL` is the view of the compare
value that the architecture gives exactly when the deadline is not past and less than `2^32` ticks ahead of
the reading. -/
theorem tval_views_iff (timer : GuestTimer) (p : VcpuPtr) (s : State) (now : U64) :
    TvalViews timer p s now ↔ (timer.compare p s - now).toNat < 2 ^ 32 := by
  rw [← eq_lower_half_iff]
  constructor
  · intro h
    have hread := h.read 0
    rw [emulate_tval_read] at hread
    exact hread
  · intro h
    refine ⟨emulate_tval_write, emulate_tval_write_compare, fun i => ?_⟩
    rw [emulate_tval_read]
    exact h

/-- The state in which vCPU `0` of the cold machine traps on a read of `CNTP_TVAL_EL0` into `x3`, sixteen
ticks past the deadline. -/
def lateState : State := coldEntry.trapped (coldSlice 0x6033e203)

/-- The guest finds 64 bits of the distance in `x3`. -/
theorem tval_read_late :
    (handle_timer_sysreg_result 0x6033e203 0x40001000 lateState).1 = true ∧
    ((handle_timer_sysreg_result 0x6033e203 0x40001000 lateState).2.vcpu 0).arch.tf.regs 3 =
      0xfffffffffffffff0 ∧
    ¬ TvalViews .CNTP 0 lateState 16 := by
  refine ⟨by decide, by decide, fun h => ?_⟩
  have hread := h.read 3
  rw [emulate_tval_read] at hread
  exact absurd hread (by decide)

end Schism
