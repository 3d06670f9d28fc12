import Schism.Esr
import Schism.Vcpu

/-!
# The EL2 exception handler (`core/trap.c`)

A handler either returns `false`, returns `true` in a new state, or never returns (`hung`): EL2
spins after a diagnostic dump, and it also ends there when it faults on its own translation while it
reads a guest's report. The console output of the report is kept because it is the handler's only
effect; the state of a report that hangs leaves out what was printed before the fault.
-/

namespace Schism

/-- The result of a `bool` handler that may also spin forever. -/
inductive Handled where
  | no
  | yes (s : State)
  | hung (s : State)

/-- The result of `el2_exception_common`. -/
inductive Outcome where
  | returned (s : State)
  | hung (s : State)

/-! ## Accesses to a guest's general-purpose registers -/

/-- `(rt < 31) ? current->arch.tf.regs[rt] : 0`. -/
def State.gpr (s : State) (p : VcpuPtr) (rt : U32) : U64 :=
  if h : rt.toNat < 31 then (s.vcpu p).arch.tf.regs ⟨rt.toNat, h⟩ else 0

/-- `if (rt < 31) current->arch.tf.regs[rt] = v`. -/
def State.setGpr (s : State) (p : VcpuPtr) (rt : U32) (v : U64) : State :=
  if h : rt.toNat < 31 then
    s.onTf p fun tf => { tf with regs := Function.update tf.regs ⟨rt.toNat, h⟩ v }
  else s

/-! ## Timer accesses -/

/-- Move `ELR_EL2` and the cached trapframe past the trapped instruction. -/
def advance_guest_elr (current : VcpuPtr) (elr : U64) (s : State) : State :=
  let next := elr + 4
  (s.msr .ELR_EL2 next).onTf current fun tf => { tf with elr_el1 := next }

/-- `(s64)(int32_t)raw`. -/
def sext32 (raw : U64) : U64 := (raw.setWidth 32).signExtend 64

/-- The `switch` of `handle_timer_sysreg`: emulate one access to `reg` at virtual time `virt_now`. The
resume address is advanced by the caller. -/
def emulate_timer (current : VcpuPtr) (reg : TimerReg) (is_read : Bool) (rt : U32) (virt_now : U64)
    (s : State) : State :=
  let cntvoff := (s.vcpu current).arch.cntvoff_el2
  match reg, is_read with
  | .CNTPCT_EL0, true | .CNTVCT_EL0, true => s.setGpr current rt virt_now
  | .CNTPCT_EL0, false | .CNTVCT_EL0, false => s
  | .CNTP_CVAL_EL0, true =>
    let virt_val := s.m.mrs .CNTP_CVAL_EL0 + cntvoff
    (s.onTf current fun tf => { tf with cntp_cval_el0 := virt_val }).setGpr current rt virt_val
  | .CNTP_CVAL_EL0, false =>
    let virt_val := s.gpr current rt
    (s.onTf current fun tf => { tf with cntp_cval_el0 := virt_val }).msr .CNTP_CVAL_EL0
      (virt_val - cntvoff)
  | .CNTP_CTL_EL0, true =>
    let s := s.elapse
    let ctl := s.m.mrs .CNTP_CTL_EL0
    (s.onTf current fun tf => { tf with cntp_ctl_el0 := ctl }).setGpr current rt ctl
  | .CNTP_CTL_EL0, false =>
    let ctl := s.gpr current rt &&& 0x3
    (s.onTf current fun tf => { tf with cntp_ctl_el0 := ctl }).msr .CNTP_CTL_EL0 ctl
  | .CNTP_TVAL_EL0, true =>
    s.setGpr current rt ((s.vcpu current).arch.tf.cntp_cval_el0 - virt_now)
  | .CNTP_TVAL_EL0, false =>
    let target := virt_now + sext32 (s.gpr current rt)
    (s.onTf current fun tf => { tf with cntp_cval_el0 := target }).msr .CNTP_CVAL_EL0
      (target - cntvoff)
  | .CNTV_CVAL_EL0, true =>
    let val := s.m.mrs .CNTV_CVAL_EL0
    (s.onTf current fun tf => { tf with cntv_cval_el0 := val }).setGpr current rt val
  | .CNTV_CVAL_EL0, false =>
    let val := s.gpr current rt
    (s.onTf current fun tf => { tf with cntv_cval_el0 := val }).msr .CNTV_CVAL_EL0 val
  | .CNTV_CTL_EL0, true =>
    let s := s.elapse
    let ctl := s.m.mrs .CNTV_CTL_EL0
    (s.onTf current fun tf => { tf with cntv_ctl_el0 := ctl }).setGpr current rt ctl
  | .CNTV_CTL_EL0, false =>
    let ctl := s.gpr current rt &&& 0x3
    (s.onTf current fun tf => { tf with cntv_ctl_el0 := ctl }).msr .CNTV_CTL_EL0 ctl
  | .CNTV_TVAL_EL0, true =>
    let val := s.m.mrs .CNTV_CVAL_EL0
    (s.onTf current fun tf => { tf with cntv_cval_el0 := val }).setGpr current rt (val - virt_now)
  | .CNTV_TVAL_EL0, false =>
    let target := virt_now + sext32 (s.gpr current rt)
    (s.onTf current fun tf => { tf with cntv_cval_el0 := target }).msr .CNTV_CVAL_EL0 target

/-- What `handle_timer_sysreg` returns, and the state in which it returns. -/
def handle_timer_sysreg_result (esr elr : U64) (s : State) : Bool × State :=
  match s.sched.current with
  | none => (false, s)
  | some current =>
    let s := s.elapse
    let virt_now := s.m.cntvct
    match timerCase (esr_sys64_sysreg esr) with
    | none => (false, s)
    | some reg =>
      (true, advance_guest_elr current elr
        (emulate_timer current reg (esr_sys64_is_read esr) (esr_sys64_rt esr) virt_now s))

/-- Handle trapped accesses to the timer registers (EC 0x18). After `false` the caller only prints a dump and
spins. -/
def handle_timer_sysreg (esr elr : U64) (s : State) : Handled :=
  match handle_timer_sysreg_result esr elr s with
  | (true, s) => .yes s
  | (false, _) => .no

/-! ## Hypercalls -/

/-- Load a byte through EL2's own translation; `none` is a translation fault. Alignment is not
modelled. -/
def Machine.load8 (m : Machine) (a : U64) : Option U8 :=
  if m.el2Readable a then some (m.mem a) else none

/-- Load a little-endian quadword. -/
def Machine.load64 (m : Machine) (a : U64) : Option U64 := do
  let b0 ← m.load8 a
  let b1 ← m.load8 (a + 1)
  let b2 ← m.load8 (a + 2)
  let b3 ← m.load8 (a + 3)
  let b4 ← m.load8 (a + 4)
  let b5 ← m.load8 (a + 5)
  let b6 ← m.load8 (a + 6)
  let b7 ← m.load8 (a + 7)
  pure (b7 ++ b6 ++ b5 ++ b4 ++ b3 ++ b2 ++ b1 ++ b0)

/-- The bytes `console_puts` emits for the string at `a`; `none` is a fault, or a string that has no
terminator among the `fuel` bytes after `a`. -/
def Machine.loadString (m : Machine) : ℕ → U64 → Option (List U8)
  | 0, _ => none
  | fuel + 1, a => do
    let c ← m.load8 a
    if c = 0 then pure [] else do
      let cs ← m.loadString fuel (a + 1)
      pure (c :: cs)

/-- The addresses that `uart_puts` loads for the string at `a`, among the `fuel` bytes after `a`. The
last one holds the terminator or faults. -/
def Machine.putsReads (m : Machine) : ℕ → U64 → List U64
  | 0, _ => []
  | fuel + 1, a =>
    match m.load8 a with
    | none => [a]
    | some c => if c = 0 then [a] else a :: m.putsReads fuel (a + 1)

/-- The characters that `uart_puts` has sent when it returns or faults; on the wire each line feed has a
carriage return before it. -/
def Machine.putsChars (m : Machine) : ℕ → U64 → List U8
  | 0, _ => []
  | fuel + 1, a =>
    match m.load8 a with
    | none => []
    | some c => if c = 0 then [] else c :: m.putsChars fuel (a + 1)

/-- What `handle_guest_task_report` prints for the report at `res`, a `struct guest_task_result`. The
whole address space has `2^64` bytes, so a longer string never ends. -/
def task_report_output (m : Machine) (vcpu_id : U32) (res : U64) : Option (List Out) := do
  let digit : U8 := 0x30 + vcpu_id.setWidth 8
  let suffix : List U8 := if digit = 0 then [] else [digit, 0x5d]
  let desc ← m.loadString (2 ^ 64) (res + 8)
  let data0 ← m.load64 (res + 40)
  let data1 ← m.load64 (res + 48)
  let time_before ← m.load64 (res + 56)
  let time_after ← m.load64 (res + 64)
  let time_target ← m.load64 (res + 72)
  let memwalk_time ← m.load64 (res + 80)
  let report : List Out := [.puts "[guest", .putsBytes suffix, .puts " ", .putsBytes desc, .puts " data0=",
    .hex64 data0, .puts " data1=", .hex64 data1, .puts "\n"]
  let timers : List Out := [.puts "  timers: before=", .hex64 time_before, .puts " after=", .hex64 time_after,
    .puts " target=", .hex64 time_target, .puts " memwalk_time=", .hex64 memwalk_time, .puts "\n"]
  if time_before ≠ 0 ∨ time_after ≠ 0 ∨ time_target ≠ 0 ∨ memwalk_time ≠ 0 then
    pure (report ++ timers)
  else pure report

/-- The addresses from `a` on that loads of `n` consecutive bytes touch, up to a fault. -/
def Machine.spanReads (m : Machine) : ℕ → U64 → List U64
  | 0, _ => []
  | n + 1, a => a :: if m.el2Readable a then m.spanReads n (a + 1) else []

/-- The addresses that `handle_guest_task_report` loads through `res`: the description, then the
quadwords from `data0` to `memwalk_time`. A string that faults or never ends leaves the rest unread. -/
def task_report_reads (m : Machine) (res : U64) : List U64 :=
  m.putsReads (2 ^ 64) (res + 8) ++
    if (m.loadString (2 ^ 64) (res + 8)).isSome then m.spanReads 48 (res + 40) else []

/-- Print a guest-supplied task report (HVC #0x60). EL2 prints while it loads: on a fault the console already
shows `[guestN] ` and the first characters of the description, which the hung state leaves out. -/
def handle_guest_task_report (s : State) : Handled :=
  match s.sched.current with
  | none => .no
  | some current =>
    let ptr := (s.vcpu current).arch.tf.regs 1
    if ptr = 0 then .yes s else
    match task_report_output s.m (s.vcpu current).vcpu_id ptr with
    | none => .hung s
    | some out => .yes (s.print out)

/-- Adjust `CNTVOFF_EL2` and the timers when a guest asks to set its virtual time (HVC #0x61). -/
def handle_guest_time_override (s : State) : Handled :=
  match s.sched.current with
  | none => .no
  | some current =>
    let desired := (s.vcpu current).arch.tf.regs 0
    let s := s.elapse
    let phys_counter := s.m.cntpct
    let offset := desired - phys_counter
    let s := s.onArch current fun a => { a with cntvct_el0 := desired, cntvoff_el2 := offset }
    let s := s.msr .CNTVOFF_EL2 offset
    let tf := (s.vcpu current).arch.tf
    let s := s.msr .CNTP_CVAL_EL0 (tf.cntp_cval_el0 - offset)
    let s := s.msr .CNTP_CTL_EL0 tf.cntp_ctl_el0
    let s := s.msr .CNTV_CVAL_EL0 tf.cntv_cval_el0
    let s := s.msr .CNTV_CTL_EL0 tf.cntv_ctl_el0
    .yes (s.onTf current fun tf => { tf with regs := Function.update tf.regs 0 desired })

/-- Dispatch hypercalls. -/
def handle_guest_hvc (esr : U64) (s : State) : Handled :=
  let imm16 := esr &&& 0xffff
  if imm16 = 0x60 then handle_guest_task_report s
  else if imm16 = 0x61 then handle_guest_time_override s
  else if imm16 = 0x63 then
    let report : List Out := match s.sched.current with
      | none => []
      | some current =>
        [.puts "  guest ESR_EL1: ", .hex64 ((s.vcpu current).arch.tf.regs 0), .puts "\n",
          .puts "  guest ELR_EL1: ", .hex64 ((s.vcpu current).arch.tf.regs 1), .puts "\n"]
    .hung (s.print (.puts "EL2: guest synchronous exception report\n" :: report))
  else .no

/-! ## The dispatcher -/

/-- The text of an abort's exception class. -/
def abort_text (ec : U64) : Option String :=
  if ec = 0x20 then some "Instruction Abort from lower EL detected.\n"
  else if ec = 0x21 then some "Instruction Abort from same EL detected.\n"
  else if ec = 0x24 then some "Data Abort from lower EL detected.\n"
  else if ec = 0x25 then some "Data Abort from same EL detected.\n"
  else none

/-- What the dump prints about an abort: the stage-2 registers, the decoded syndrome and the level-1
entry for the faulting address. -/
def abort_dump (m : Machine) (esr far : U64) (text : String) : List Out :=
  let vttbr := m.mrs .VTTBR_EL2
  let iss := esr &&& 0xffffff
  let ifsc := iss &&& 0x3f
  let lvl : List Out := if ifsc = 0x4 ∨ ifsc = 0x5 ∨ ifsc = 0x6 then
    [.puts "  LVL: ", .hex64 (ifsc - 0x4), .puts "\n"] else []
  let ipa_index := (far >>> 30) &&& 0x1ff
  let l1_base := vttbr &&& ((1 <<< 48) - 1)
  -- a fault on `l1` itself ends the dump
  let entry : List Out := match m.load64 (l1_base + 8 * ipa_index) with
    | none => []
    | some entry =>
      [.puts "S2 L1 entry value : ", .hex64 entry, .puts "\n",
        .puts (if entry &&& 0x1 = 0 then "S2 L1 entry NOT VALID -> translation fault\n"
          else "S2 L1 entry valid.\n")]
  let stage2 : List Out := [.puts text, .puts "VTTBR_EL2: ", .hex64 vttbr, .puts "\n",
    .puts "VTCR_EL2 : ", .hex64 (m.mrs .VTCR_EL2), .puts "\n",
    .puts "HPFAR_EL2 : ", .hex64 (m.mrs .HPFAR_EL2), .puts "\n",
    .puts "ISS: ", .hex64 iss, .puts "\n", .puts "  IFSC: ", .hex64 ifsc, .puts "\n"]
  let flags : List Out := [.puts "  S1PTW: ", .hex64 ((iss >>> 7) &&& 1), .puts "\n",
    .puts "  FnV: ", .hex64 ((iss >>> 10) &&& 1), .puts "\n",
    .puts "  EA: ", .hex64 ((iss >>> 9) &&& 1), .puts "\n",
    .puts "S2 L1 idx for FAR: ", .hex64 ipa_index, .puts "\n"]
  stage2 ++ lvl ++ flags ++ entry

/-- What EL2 prints before it hangs. -/
def exception_dump (m : Machine) (esr elr spsr far code : U64) : List Out :=
  let ec := esr_ec esr
  let banner : List Out := [.puts "\n=== EL2 Exception ===\n", .puts "ESR: ", .hex64 esr, .puts "\n",
    .puts "ELR: ", .hex64 elr, .puts "\n", .puts "SPSR: ", .hex64 spsr, .puts "\n",
    .puts "FAR: ", .hex64 far, .puts "\n", .puts "Code: ", .hex64 code, .puts "\n",
    .puts "====================\n",
    .puts "Exception Class (EC): ", .hex64 ec, .puts "\n"]
  match abort_text ec with
  | none => banner
  | some text => banner ++ abort_dump m esr far text

/-- The WFI/WFE branch of the handler. -/
def handle_wfx (elr : U64) (s : State) : State :=
  let next := elr + 4
  let s := s.print [.puts "EL2: WFI/WFE from guest detected, yielding...\n"]
  let s := s.msr .ELR_EL2 next
  match s.sched.current with
  | none => s
  | some current =>
    (s.onTf current fun tf => { tf with elr_el1 := next }).setRequestYield current true

/-- Top-level EL2 exception handler. -/
def el2_exception_common (esr elr spsr far code : U64) (s : State) : Outcome :=
  let ec := esr_ec esr
  let dump := Outcome.hung (s.print (exception_dump s.m esr elr spsr far code))
  if ec = 0x01 then .returned (handle_wfx elr s)
  else if ec = 0x16 then
    match handle_guest_hvc esr s with
    | .yes s => .returned s
    | .hung s => .hung s
    | .no => dump
  else if ec = 0x18 then
    match handle_timer_sysreg esr elr s with
    | .yes s => .returned s
    | .hung s => .hung s
    | .no => dump
  else dump

end Schism
