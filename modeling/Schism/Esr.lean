import Schism.Machine

/-!
# Decoding the syndrome register (`core/trap.c`, lines 9-60)

The decoder of a trapped system-register access, as the source extracts its fields, and the encoding
that the Arm architecture gives the same syndrome (`sys64Esr`). The second one is the reference the
decoder is measured against; no function of the hypervisor computes it.
-/

namespace Schism

/-- The exception class of a syndrome. -/
def esr_ec (esr : U64) : U64 := (esr >>> 26) &&& 0x3f

def SYS_REG_ENCODE (op0 op1 crn crm op2 : U32) : U32 :=
  (op0 <<< 14) ||| (op1 <<< 10) ||| (crn <<< 6) ||| (crm <<< 2) ||| op2

/-- The timer registers `handle_timer_sysreg` emulates. -/
inductive TimerReg where
  | CNTPCT_EL0 | CNTVCT_EL0
  | CNTP_TVAL_EL0 | CNTP_CTL_EL0 | CNTP_CVAL_EL0
  | CNTV_TVAL_EL0 | CNTV_CTL_EL0 | CNTV_CVAL_EL0
deriving DecidableEq

/-- The `SYS_CNT*` enumeration. -/
def TimerReg.sys : TimerReg → U32
  | .CNTPCT_EL0 => SYS_REG_ENCODE 3 3 14 0 1
  | .CNTVCT_EL0 => SYS_REG_ENCODE 3 3 14 0 2
  | .CNTP_TVAL_EL0 => SYS_REG_ENCODE 3 3 14 2 0
  | .CNTP_CTL_EL0 => SYS_REG_ENCODE 3 3 14 2 1
  | .CNTP_CVAL_EL0 => SYS_REG_ENCODE 3 3 14 2 2
  | .CNTV_TVAL_EL0 => SYS_REG_ENCODE 3 3 14 3 0
  | .CNTV_CTL_EL0 => SYS_REG_ENCODE 3 3 14 3 1
  | .CNTV_CVAL_EL0 => SYS_REG_ENCODE 3 3 14 3 2

/-- The `case` of the handler's `switch` that a decoded register selects. -/
def timerCase (sysreg : U32) : Option TimerReg :=
  [TimerReg.CNTPCT_EL0, .CNTVCT_EL0, .CNTP_CVAL_EL0, .CNTP_CTL_EL0, .CNTP_TVAL_EL0,
    .CNTV_CVAL_EL0, .CNTV_CTL_EL0, .CNTV_TVAL_EL0].find? (·.sys = sysreg)

/-- Decode the trapped system register. -/
def esr_sys64_sysreg (esr : U64) : U32 :=
  let iss := esr &&& 0x1ffffff
  let op0 : U32 := ((iss >>> 20) &&& 0x3).setWidth 32
  let op1 : U32 := ((iss >>> 16) &&& 0xf).setWidth 32
  let crn : U32 := ((iss >>> 12) &&& 0xf).setWidth 32
  let crm : U32 := ((iss >>> 8) &&& 0xf).setWidth 32
  let op2 : U32 := ((iss >>> 5) &&& 0x7).setWidth 32
  SYS_REG_ENCODE op0 op1 crn crm op2

/-- Extract the `Rt` field. -/
def esr_sys64_rt (esr : U64) : U32 := (esr &&& 0x1f).setWidth 32

/-- Whether the trapped access was a read. -/
def esr_sys64_is_read (esr : U64) : Bool := ((esr >>> 21) &&& 0x1) != 0

/-- The fields of a trapped `MSR`/`MRS` instruction. -/
structure Sys64Access where
  op0 : BitVec 2
  op1 : BitVec 3
  crn : BitVec 4
  crm : BitVec 4
  op2 : BitVec 3
  rt : BitVec 5
  /-- `1` for a read. -/
  direction : BitVec 1

/-- The syndrome the architecture reports for a trapped access: `Op0` in bits `[21:20]`, `Op2` in
`[19:17]`, `Op1` in `[16:14]`, `CRn` in `[13:10]`, `Rt` in `[9:5]`, `CRm` in `[4:1]` and the direction
in bit `0`. The bits above are `rest`. -/
def sys64Esr (a : Sys64Access) (rest : BitVec 42) : U64 :=
  rest ++ a.op0 ++ a.op2 ++ a.op1 ++ a.crn ++ a.rt ++ a.crm ++ a.direction

/-- The three extractors recover the access `a` from the syndrome `esr`. -/
def DecodesTo (esr : U64) (a : Sys64Access) : Prop :=
  esr_sys64_sysreg esr = SYS_REG_ENCODE (a.op0.setWidth 32) (a.op1.setWidth 32)
    (a.crn.setWidth 32) (a.crm.setWidth 32) (a.op2.setWidth 32) ∧
  esr_sys64_rt esr = a.rt.setWidth 32 ∧
  esr_sys64_is_read esr = (a.direction == 1)

instance (esr : U64) (a : Sys64Access) : Decidable (DecodesTo esr a) :=
  inferInstanceAs (Decidable (_ ∧ _ ∧ _))

end Schism
