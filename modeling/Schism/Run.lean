import Schism.Trap
import Schism.WorldSwitch

/-!
# Runs of `vcpu_run` (`core/vcpu.c`, lines 72-109; `arch/arm64/vectors_el2.S`)

A run alternates between a guest and EL2. `Running` is the moment a guest has been entered, a `Slice`
is everything the guest does until its next exception, and `Running.step` is all of EL2 from that
exception to the next guest entry. `world_switch` is called from two places, the body of the loop of
`vcpu_run` and `vcpu_scheduler_yield`; `CallSite` remembers to which of them the call returns.

The slices are arbitrary: a guest may leave any value in the registers it can write and end its slice
with any exception. EL2's own data is not reachable through a slice, and exceptions taken while EL2
itself executes are not part of a run.
-/

namespace Schism

/-! ## Leaving a guest -/

/-- How a guest's slice ends. An interrupt does not update `ESR_EL2`. -/
inductive Exit where
  | sync (esr far : U64)
  | irq
  | fiq
  | serror (esr : U64)

/-- The code of the vector slot that takes the exception from a 64-bit guest. -/
def Exit.code : Exit → U64
  | .sync _ _ => 0x20
  | .irq => 0x21
  | .fiq => 0x22
  | .serror _ => 0x23

/-- One guest slice: the contents the guest leaves in the registers and in memory, and the exception
that ends it. -/
structure Slice where
  x : Fin 31 → U64
  /-- Only the values of registers that the guest can write are used. -/
  sys : SysReg → U64
  q : Fin 32 → U64 × U64
  /-- Memory as the loads of the handler see it. EL2's own stores are not in it. -/
  mem : U64 → U8
  /-- The preferred return address of the exception. -/
  pc : U64
  pstate : U64
  exit : Exit

/-- The syndrome registers after an exception. -/
def Machine.setSyndrome (m : Machine) : Exit → Machine
  | .sync esr far => (m.msr .ESR_EL2 esr).msr .FAR_EL2 far
  | .serror esr => m.msr .ESR_EL2 esr
  | .irq | .fiq => m

/-- The machine at the vector, after the guest's slice. -/
def Machine.exitGuest (m : Machine) (sl : Slice) : Machine :=
  let m := { m with
    x := sl.x
    sys := fun r => if r.guestWritable then sl.sys r else m.sys r
    q := sl.q
    mem := sl.mem
    instant := m.instant + 1 }
  ((m.msr .ELR_EL2 sl.pc).msr .SPSR_EL2 sl.pstate).setSyndrome sl.exit

/-- `el2_vector_common` up to the call of the handler: save into the latched frame and clear the
latch. -/
def el2_vector_common (code : U64) (s : State) : State :=
  match s.current_trapframe with
  | none => s
  | some p => { s.onTf p (el2_vector_save code s.m) with current_trapframe := none }

/-! ## The scheduler loop -/

/-- The call of `world_switch` that entered the running guest. -/
inductive CallSite where
  /-- `world_switch(NULL, current)` in the loop of `vcpu_run`. -/
  | loop
  /-- `world_switch(prev, target)` in `vcpu_scheduler_yield`. -/
  | yield
deriving DecidableEq

/-- A guest has just been entered. -/
structure Running where
  st : State
  /-- The `to` of the call of `world_switch`. -/
  vcpu : VcpuPtr
  site : CallSite

/-- The head of the loop of `vcpu_run`; `none` when it breaks. -/
def loop_head (s : State) : Option Running :=
  match s.sched.current with
  | none => none
  | some current => some ⟨world_switch none current s, current, .loop⟩

/-- `vcpu_scheduler_yield`: enters the next vCPU, or returns `false` without any effect (`none`). -/
def vcpu_scheduler_yield (s : State) : Option Running :=
  match s.sched.yieldTarget with
  | none => none
  | some (next, target) =>
    let prev := s.sched.current
    let s := { s with sched := { s.sched with current := some target, idx := next } }
    some ⟨world_switch prev target s, target, .yield⟩

/-- The rest of the loop body of `vcpu_run` after its `world_switch(NULL, current)` returned, and the
next iteration. -/
def loop_tail (current : VcpuPtr) (s : State) : Option Running :=
  if (s.vcpu current).request_yield then
    let s := s.setRequestYield current false
    match vcpu_scheduler_yield s with
    | some r => some r
    | none => loop_head s
  else loop_head s

/-- `vcpu_run(vcpu)` up to its first guest entry. -/
def vcpu_run (vcpu : Option VcpuPtr) (s : State) : Option Running :=
  match vcpu with
  | none => none
  | some _ => loop_head { s with sched := s.sched.vcpu_scheduler_set_current vcpu }

namespace Running

/-- The machine at the vector when the slice `sl` of the running guest has ended. -/
def exitMachine (r : Running) (sl : Slice) : Machine := r.st.m.exitGuest sl

/-- The state in which the slice's exception calls `el2_exception_common`. -/
def trapped (r : Running) (sl : Slice) : State :=
  el2_vector_common sl.exit.code { r.st with m := r.exitMachine sl }

/-- Run the handler on the slice's exception. -/
def handle (r : Running) (sl : Slice) : Outcome :=
  let s := r.trapped sl
  el2_exception_common (s.m.mrs .ESR_EL2) (s.m.mrs .ELR_EL2) (s.m.mrs .SPSR_EL2) (s.m.mrs .FAR_EL2)
    sl.exit.code s

/-- `world_switch` returns to its caller. -/
def resume (r : Running) (s : State) : Option Running :=
  let s := world_switch_return s
  match r.site with
  | .loop => loop_tail r.vcpu s
  | .yield => loop_head s

/-- One slice, the trap that ends it and EL2 up to the next guest entry; `none` when EL2 hangs. -/
def step (r : Running) (sl : Slice) : Option Running :=
  match r.handle sl with
  | .hung _ => none
  | .returned s => r.resume s

/-- The guest entries made by a sequence of slices, the current one first; `none` when EL2 hangs. -/
def entries (r : Running) : List Slice → Option (List Running)
  | [] => some [r]
  | sl :: sls => do
    let r' ← r.step sl
    let rs ← r'.entries sls
    pure (r :: rs)

end Running

/-! ## Reachable entries -/

/-- EL2's globals after boot, with every vCPU as `vcpu_init_slot` leaves it in so far as the scheduler
is concerned. -/
structure Booted (s : State) : Prop where
  sched : s.sched = .empty
  latch : s.current_trapframe = none
  lr_count : s.vgic_lr_cached = 0
  no_request : ∀ p, (s.vcpu p).request_yield = false

/-- Make a sequence of scheduler calls. -/
def State.schedule (s : State) (ops : List SchedOp) : State :=
  { s with sched := ops.foldl SchedOp.apply s.sched }

/-- The guest entries of the runs of `vcpu_run`, after any sequence of registrations. -/
inductive Reachable : Running → Prop where
  | start {s : State} {ops : List SchedOp} {v : Option VcpuPtr} {r : Running} (hs : Booted s)
      (h : vcpu_run v (s.schedule ops) = some r) : Reachable r
  | step {r r' : Running} {sl : Slice} (hr : Reachable r) (h : r.step sl = some r') : Reachable r'

/-- A step that leaves an entry of a vCPU other than `v`. -/
def StepAvoiding (v : VcpuPtr) (r r' : Running) : Prop := r.vcpu ≠ v ∧ ∃ sl, r.step sl = some r'

/-- `r'` is the next entry of the vCPU that runs in `r`, whose current slice is `sl`. -/
def NextEntry (r : Running) (sl : Slice) (r' : Running) : Prop :=
  r'.vcpu = r.vcpu ∧
  ∃ r₁, r.step sl = some r₁ ∧ Relation.ReflTransGen (StepAvoiding r.vcpu) r₁ r'

/-! ## Calls of the scheduler's interface -/

/-- A call of the scheduler's interface. A yield that switches returns after one slice of the vCPU that
it enters. -/
inductive SchedCall where
  | register (vcpu : Option VcpuPtr)
  | setCurrent (vcpu : Option VcpuPtr)
  | yield (sl : Slice)

namespace SchedCall

/-- The state when the call returns; `none` when EL2 hangs on the exception that ends the slice. -/
def run (s : State) : SchedCall → Option State
  | .register v => some { s with sched := s.sched.vcpu_scheduler_register v }
  | .setCurrent v => some { s with sched := s.sched.vcpu_scheduler_set_current v }
  | .yield sl =>
    match vcpu_scheduler_yield s with
    | none => some s
    | some r =>
      match r.handle sl with
      | .hung _ => none
      | .returned s => some (world_switch_return s)

/-- A sequence of calls. -/
def runAll (calls : List SchedCall) (s : State) : Option State := calls.foldlM run s

/-- The vCPU that the call switches to. -/
def selected (s : State) : SchedCall → Option VcpuPtr
  | .yield _ => (vcpu_scheduler_yield s).map Running.vcpu
  | _ => none

/-- The vCPUs that a sequence of calls switches to, in order. -/
def selections (s : State) : List SchedCall → List VcpuPtr
  | [] => []
  | c :: calls => (c.selected s).toList ++ (c.run s).elim [] fun s => selections s calls

end SchedCall

/-- The vCPU is in the run queue. -/
def Sched.Registered (sc : Sched) (v : VcpuPtr) : Prop := ∃ i < sc.len, sc.runqueue i = some v

end Schism
