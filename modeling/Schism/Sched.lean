import Schism.Vcpu

/-!
# The vCPU scheduler (`core/vcpu.c`, lines 21-70)

The operations on the run queue. `vcpu_scheduler_yield` also switches worlds and is defined with
`world_switch`.
-/

namespace Schism

def VCPU_SCHED_MAX : ℕ := 8

namespace Sched

/-- The index of `vcpu` in the queue; `none` is the source's `-1`. -/
def sched_find_slot (sc : Sched) (vcpu : VcpuPtr) : Option ℕ :=
  (List.range sc.len).find? fun i => sc.runqueue i = some vcpu

/-- `sched_runqueue[sched_len++] = vcpu`. -/
def push (sc : Sched) (vcpu : VcpuPtr) : Sched :=
  { sc with runqueue := Function.update sc.runqueue sc.len (some vcpu), len := sc.len + 1 }

def vcpu_scheduler_register (vcpu : Option VcpuPtr) (sc : Sched) : Sched :=
  match vcpu with
  | none => sc
  | some p =>
    if VCPU_SCHED_MAX ≤ sc.len then sc
    else if (sc.sched_find_slot p).isSome then sc
    else
      let sc := sc.push p
      if sc.current.isNone then { sc with current := some p, idx := sc.len - 1 } else sc

def vcpu_scheduler_set_current (vcpu : Option VcpuPtr) (sc : Sched) : Sched :=
  match vcpu with
  | none => sc
  | some p =>
    match sc.sched_find_slot p with
    | some slot => { sc with current := some p, idx := slot }
    | none =>
      if sc.len < VCPU_SCHED_MAX then
        let slot := sc.len
        { sc.push p with current := some p, idx := slot }
      else sc

/-- The vCPU that `vcpu_scheduler_yield` would switch to, with its index; `none` when the yield returns
`false`. -/
def yieldTarget (sc : Sched) : Option (ℕ × VcpuPtr) :=
  if sc.len ≤ 1 then none else
  match sc.current with
  | none => none
  | some cur =>
    let next := (sc.idx + 1) % sc.len
    match sc.runqueue next with
    | none => none
    | some target => if target = cur then none else some (next, target)

/-- The globals when `vcpu_scheduler_yield` calls `world_switch`, or returns `false`. -/
def yielded (sc : Sched) : Sched :=
  match sc.yieldTarget with
  | none => sc
  | some (next, target) => { sc with current := some target, idx := next }

/-- The globals as the loader leaves them. -/
def empty : Sched where
  runqueue := fun _ => none
  len := 0
  idx := 0
  current := none

end Sched

/-- A call of the scheduler's interface before the vCPUs run. -/
inductive SchedOp where
  | register (vcpu : Option VcpuPtr)
  | setCurrent (vcpu : Option VcpuPtr)

def SchedOp.apply (sc : Sched) : SchedOp → Sched
  | .register v => sc.vcpu_scheduler_register v
  | .setCurrent v => sc.vcpu_scheduler_set_current v

end Schism
