import Schism.Run

/-!
# EL2's own context (`switch_el2.S`, lines 6-17; the tail of `el2_vector_common`; `core/vcpu.c`)

`Running.step` is all of EL2 between two guest entries. Here the same code is cut at the program points
at which EL2 itself can take an exception: the loop of `vcpu_run` from the return of `vcpu_switch_asm`
to the next `msr daifset, #2`. `vcpu_switch_asm` parks the host's callee-saved registers and its stack
pointer in the global `host_saved_area`, and every exception, from whatever level, ends by loading them
again and by `ret`.

The addresses of the compiled code are parameters (`LoopCode`), and so are the values that compiled code
leaves in registers: between two program points they change arbitrarily.
-/

namespace Schism

/-! ## The saved area -/

/-- The registers of EL2 code. -/
structure HostContext where
  x : Fin 31 → U64
  sp : U64
  pc : U64

/-- The quadwords of `host_saved_area`, by byte offset. -/
abbrev HostSavedArea := ℕ → U64

/-- The register pairs of the `stp`/`ldp` instructions, with their byte offsets. -/
def hostPairs : List (Fin 31 × Fin 31 × ℕ) :=
  [(19, 20, 0), (21, 22, 16), (23, 24, 32), (25, 26, 48), (27, 28, 64), (29, 30, 80)]

/-- The stores at the head of `vcpu_switch_asm`. -/
def host_save (c : HostContext) (area : HostSavedArea) : HostSavedArea :=
  let area := hostPairs.foldl (fun a i =>
    Function.update (Function.update a i.2.2 (c.x i.1)) (i.2.2 + 8) (c.x i.2.1)) area
  Function.update area 96 c.sp

/-- The end of `el2_vector_common`, from the return of the handler with the registers `x` to its `ret`.
The area lies at `addr`. -/
def el2_vector_return (addr : U64) (area : HostSavedArea) (x : Fin 31 → U64) : HostContext :=
  let x := Function.update x 2 addr
  let x := hostPairs.foldl (fun x i =>
    Function.update (Function.update x i.1 (area i.2.2)) i.2.1 (area (i.2.2 + 8))) x
  let x := Function.update x 1 (area 96)
  { x := x, sp := x 1, pc := x 30 }

/-! ## The loop, point by point -/

/-- The program points between the return of `vcpu_switch_asm` and the next `msr daifset, #2`. -/
inductive LoopPoint where
  /-- `world_switch`, where `vcpu_switch_asm` returns to: `msr daifclr, #2`. -/
  | switch_return
  /-- `world_switch`: `isb` and the return to the caller. -/
  | switch_end
  /-- `vcpu_run`: `if (current->request_yield)` and the assignment of `false`. -/
  | request_check
  /-- `vcpu_scheduler_yield` up to the call of `world_switch`. -/
  | yield
  /-- `vcpu_run`: the head of the loop. -/
  | loop_head
  /-- `world_switch`: `msr daifset, #2`. -/
  | switch_mask
deriving DecidableEq

/-- IRQs are enabled when the code at the point is executed. -/
def LoopPoint.unmasked : LoopPoint → Bool
  | .switch_return => false
  | _ => true

/-- The loop at a program point. -/
structure Loop where
  point : LoopPoint
  /-- Which call of `world_switch` it is that returns or is being made. -/
  site : CallSite
  /-- The variable `current` of `vcpu_run`. -/
  current : VcpuPtr
  /-- The arguments of the next call of `world_switch`, once they are known. -/
  call : Option (Option VcpuPtr × VcpuPtr)
  st : State

/-- The guest of `r` has trapped, the handler has returned in `s`, and `vcpu_switch_asm` returns. Taking
the exception has masked IRQs. -/
def Loop.returned (r : Running) (s : State) : Loop where
  point := .switch_return
  site := r.site
  current := r.vcpu
  call := none
  st := s.onMachine fun m => { m with irqMasked := true }

/-- Execute the code at the program point; `none` when the loop ends or the next call of `world_switch`
masks IRQs. -/
def Loop.next (l : Loop) : Option Loop :=
  match l.point with
  | .switch_return => some { l with point := .switch_end, st := world_switch_return l.st }
  | .switch_end =>
    match l.site with
    | .loop => some { l with point := .request_check }
    | .yield => some { l with point := .loop_head }
  | .request_check =>
    if (l.st.vcpu l.current).request_yield then
      some { l with point := .yield, st := l.st.setRequestYield l.current false }
    else some { l with point := .loop_head }
  | .yield =>
    match l.st.sched.yieldTarget with
    | none => some { l with point := .loop_head }
    | some (next, target) => some { l with
        point := .switch_mask
        site := .yield
        call := some (l.st.sched.current, target)
        st := { l.st with sched := { l.st.sched with current := some target, idx := next } } }
  | .loop_head =>
    match l.st.sched.current with
    | none => none
    | some current => some { l with
        point := .switch_mask, site := .loop, current := current, call := some (none, current) }
  | .switch_mask => none

/-- The guest entry that the call of `world_switch` makes. -/
def Loop.enter (l : Loop) : Option Running :=
  match l.point, l.call with
  | .switch_mask, some (src, target) => some ⟨world_switch src target l.st, target, l.site⟩
  | _, _ => none

/-! ## Contexts of the loop -/

/-- The compiled loop. -/
structure LoopCode where
  /-- The program point to which the instruction at an address belongs. -/
  point : U64 → Option LoopPoint
  /-- The return address of the call of `vcpu_switch_asm`. -/
  ret : U64
  point_ret : point ret = some .switch_return
  /-- The address of `host_saved_area`. -/
  host_saved_area : U64

/-- EL2 at a program point of the loop, with its registers and the saved area. -/
structure Host where
  loop : Loop
  ctx : HostContext
  area : HostSavedArea

/-- `vcpu_switch_asm` has filled the area when `world_switch` called it. -/
def SavedByCall (C : LoopCode) (area : HostSavedArea) : Prop :=
  ∃ c a, area = host_save c a ∧ c.x 30 = C.ret

/-- The contexts of the loop after the exit of a guest, up to the first exception that EL2 itself
takes. -/
inductive InLoop (C : LoopCode) : Host → Prop where
  | exit {r : Running} {sl : Slice} {s' : State} {area : HostSavedArea} (hr : Reachable r)
      (h : r.handle sl = .returned s') (ha : SavedByCall C area) (x : Fin 31 → U64) :
      InLoop C ⟨.returned r s', el2_vector_return C.host_saved_area area x, area⟩
  /-- Another instruction of the same program point. -/
  | inside {h : Host} {c : HostContext} (hh : InLoop C h) (hc : C.point c.pc = some h.loop.point) :
      InLoop C { h with ctx := c }
  | next {h : Host} {l : Loop} {c : HostContext} (hh : InLoop C h) (hn : h.loop.next = some l)
      (hc : C.point c.pc = some l.point) : InLoop C { h with loop := l, ctx := c }

/-! ## Exceptions taken from EL2 -/

/-- An exception that EL2 takes from itself. `x` are the registers that the handler leaves. -/
structure HostException where
  exit : Exit
  pstate : U64
  x : Fin 31 → U64

/-- The code of the vector slot for the current exception level with `SP_ELx`. -/
def HostException.code (e : HostException) : U64 :=
  match e.exit with
  | .sync _ _ => 0x10
  | .irq => 0x11
  | .fiq => 0x12
  | .serror _ => 0x13

/-- Take the exception, run the handler and return from the vector; `none` when EL2 hangs. -/
def Host.take (C : LoopCode) (e : HostException) (h : Host) : Option Host :=
  let m := ((h.loop.st.m.msr .ELR_EL2 h.ctx.pc).msr .SPSR_EL2 e.pstate).setSyndrome e.exit
  let m := { m with x := h.ctx.x, irqMasked := true }
  let s := el2_vector_common e.code { h.loop.st with m := m }
  match el2_exception_common (s.m.mrs .ESR_EL2) (s.m.mrs .ELR_EL2) (s.m.mrs .SPSR_EL2)
      (s.m.mrs .FAR_EL2) e.code s with
  | .hung _ => none
  | .returned s => some {
      loop := { h.loop with point := .switch_return, call := none, st := s }
      ctx := el2_vector_return C.host_saved_area h.area e.x
      area := h.area }

end Schism
