import Schism.HostContext
import Schism.Proofs.AsyncProofs

/-!
# Where an exception taken from EL2 returns to

The vector returns to the address that `vcpu_switch_asm` has saved, which is an instruction that is only
executed with IRQs masked. The interrupted instruction is therefore never the one that is resumed.
-/

namespace Schism

/-! ## The loop refines the step -/

/-- One step of the loop. -/
def LoopStep (l l' : Loop) : Prop := l.next = some l'

/-- The tail of `vcpu_run`'s loop body, from the yield or the head on. -/
theorem loop_head_enter {l : Loop} {r' : Running} (hp : l.point = .loop_head)
    (h : loop_head l.st = some r') :
    ∃ l', Relation.ReflTransGen LoopStep l l' ∧ l'.enter = some r' := by
  unfold loop_head at h
  split at h
  · cases h
  · rename_i current hc
    cases h
    have hstep : LoopStep l { l with
        point := .switch_mask, site := .loop, current := current, call := some (none, current) } := by
      simp only [LoopStep, Loop.next, hp, hc]
    exact ⟨_, .single hstep, rfl⟩

theorem yield_enter {l : Loop} {r' : Running} (hp : l.point = .yield)
    (h : (match vcpu_scheduler_yield l.st with
      | some r => some r
      | none => loop_head l.st) = some r') :
    ∃ l', Relation.ReflTransGen LoopStep l l' ∧ l'.enter = some r' := by
  unfold vcpu_scheduler_yield at h
  cases ht : l.st.sched.yieldTarget with
  | none =>
    rw [ht] at h
    have hstep : LoopStep l { l with point := .loop_head } := by
      simp only [LoopStep, Loop.next, hp, ht]
    obtain ⟨l', hpath, he⟩ := loop_head_enter (l := { l with point := .loop_head }) rfl h
    exact ⟨l', .head hstep hpath, he⟩
  | some nt =>
    obtain ⟨next, target⟩ := nt
    rw [ht] at h
    cases h
    have hstep : LoopStep l { l with
        point := .switch_mask
        site := .yield
        call := some (l.st.sched.current, target)
        st := { l.st with sched := { l.st.sched with current := some target, idx := next } } } := by
      simp only [LoopStep, Loop.next, hp, ht]
    exact ⟨_, .single hstep, rfl⟩

/-- The loop, executed from the return of `vcpu_switch_asm`, makes the guest entry of the step. -/
theorem resume_loop {r r' : Running} {s : State} (h : r.resume s = some r') :
    ∃ l, Relation.ReflTransGen LoopStep (.returned r s) l ∧ l.enter = some r' := by
  let l₁ : Loop := { Loop.returned r s with point := .switch_end, st := world_switch_return s }
  have h₁ : LoopStep (.returned r s) l₁ := rfl
  cases hsite : r.site with
  | yield =>
    have hh : loop_head (world_switch_return s) = some r' := by
      simpa only [Running.resume, hsite] using h
    have h₂ : LoopStep l₁ { l₁ with point := .loop_head } := by
      simp only [LoopStep, Loop.next, l₁, Loop.returned, hsite]
    obtain ⟨l', hpath, he⟩ := loop_head_enter (l := { l₁ with point := .loop_head }) rfl hh
    exact ⟨l', .head h₁ (.head h₂ hpath), he⟩
  | loop =>
    have ht : loop_tail r.vcpu (world_switch_return s) = some r' := by
      simpa only [Running.resume, hsite] using h
    have h₂ : LoopStep l₁ { l₁ with point := .request_check } := by
      simp only [LoopStep, Loop.next, l₁, Loop.returned, hsite]
    unfold loop_tail at ht
    by_cases hy : ((world_switch_return s).vcpu r.vcpu).request_yield = true
    · rw [if_pos hy] at ht
      let l₃ : Loop := { l₁ with
        point := .yield, st := (world_switch_return s).setRequestYield r.vcpu false }
      have h₃ : LoopStep { l₁ with point := .request_check } l₃ := if_pos hy
      obtain ⟨l', hpath, he⟩ := yield_enter (l := l₃) rfl ht
      exact ⟨l', .head h₁ (.head h₂ (.head h₃ hpath)), he⟩
    · rw [if_neg hy] at ht
      have h₃ : LoopStep { l₁ with point := .request_check } { l₁ with point := .loop_head } :=
        if_neg hy
      obtain ⟨l', hpath, he⟩ := loop_head_enter (l := { l₁ with point := .loop_head }) rfl ht
      exact ⟨l', .head h₁ (.head h₂ (.head h₃ hpath)), he⟩

/-! ## Contexts -/

/-- Saving and loading the area brings back the return address of the call. -/
theorem el2_vector_return_pc (addr : U64) (c : HostContext) (a : HostSavedArea) (x : Fin 31 → U64) :
    (el2_vector_return addr (host_save c a) x).pc = c.x 30 := rfl

theorem SavedByCall.pc {C : LoopCode} {area : HostSavedArea} (h : SavedByCall C area) (addr : U64)
    (x : Fin 31 → U64) : (el2_vector_return addr area x).pc = C.ret := by
  obtain ⟨c, a, rfl, hc⟩ := h
  rw [el2_vector_return_pc, hc]

/-- EL2 executes an instruction of its program point, and the area was filled by the last call of
`vcpu_switch_asm`. -/
structure OnLoop (C : LoopCode) (h : Host) : Prop where
  pc : C.point h.ctx.pc = some h.loop.point
  saved : SavedByCall C h.area

/-- IRQs are enabled exactly at the points that are marked so. -/
def MaskOk (l : Loop) : Prop := l.st.m.irqMasked = false ↔ l.point.unmasked = true

theorem Loop.next_mask {l l' : Loop} (h : l.next = some l') (hm : MaskOk l) : MaskOk l' := by
  have keep : l.point ≠ .switch_return → l'.st.m.irqMasked = l.st.m.irqMasked →
      l'.point.unmasked = true → MaskOk l' := by
    intro hp hst hu
    have hopen : l.st.m.irqMasked = false := by
      refine hm.mpr ?_
      cases hl : l.point <;> first | rfl | exact absurd hl hp
    exact ⟨fun _ => hu, fun _ => hst.trans hopen⟩
  unfold Loop.next at h
  cases hp : l.point with
  | switch_return =>
    rw [hp] at h
    cases h
    exact ⟨fun _ => rfl, fun _ => rfl⟩
  | switch_end =>
    simp only [hp] at h
    split at h <;> cases h <;> exact keep (by rw [hp]; decide) rfl rfl
  | request_check =>
    simp only [hp] at h
    split at h <;> cases h <;> exact keep (by rw [hp]; decide) rfl rfl
  | yield =>
    simp only [hp] at h
    split at h <;> cases h <;> exact keep (by rw [hp]; decide) rfl rfl
  | loop_head =>
    simp only [hp] at h
    split at h
    · cases h
    · cases h
      exact keep (by rw [hp]; decide) rfl rfl
  | switch_mask =>
    simp only [hp] at h
    cases h

/-- Every context of the loop is at its program point, with IRQs enabled where they should be. -/
theorem InLoop.onLoop {C : LoopCode} {h : Host} (hh : InLoop C h) : OnLoop C h ∧ MaskOk h.loop := by
  induction hh with
  | exit hr h ha x =>
    refine ⟨⟨?_, ha⟩, ?_, ?_⟩
    · rw [ha.pc]
      exact C.point_ret
    · intro hm
      cases hm
    · intro hu
      cases hu
  | inside _ hc ih => exact ⟨⟨hc, ih.1.saved⟩, ih.2⟩
  | next _ hn hc ih => exact ⟨⟨hc, ih.1.saved⟩, Loop.next_mask hn ih.2⟩

/-! ## Exceptions -/

/-- `h'` continues the interrupted context of `h`, and no guest's frame has changed. -/
structure ResumesHost (h h' : Host) : Prop where
  ctx : h'.ctx = h.ctx
  frames : ∀ p, (h'.loop.st.vcpu p).arch.tf = (h.loop.st.vcpu p).arch.tf

theorem Host.take_ctx {C : LoopCode} {e : HostException} {h h' : Host} (ht : h.take C e = some h') :
    h'.ctx = el2_vector_return C.host_saved_area h.area e.x := by
  unfold Host.take at ht
  simp only at ht
  split at ht
  · cases ht
  · cases ht
    rfl

/-- In the loop of `vcpu_run` IRQs are enabled from the end of `world_switch` to the next call of it, and
at none of these points is the context that an exception interrupts resumed. -/
theorem host_exception_never_resumes (C : LoopCode) :
    (∀ h, InLoop C h →
      OnLoop C h ∧ (h.loop.st.m.irqMasked = false ↔ h.loop.point.unmasked = true)) ∧
    ∀ h, OnLoop C h → h.loop.point.unmasked = true →
      ∀ e h', h.take C e = some h' → ¬ ResumesHost h h' := by
  refine ⟨fun h hh => hh.onLoop, ?_⟩
  intro h hon hu e h' ht hres
  have hpc : h.ctx.pc = C.ret := by rw [← hres.ctx, Host.take_ctx ht, hon.saved.pc]
  have hpoint := hon.pc
  rw [hpc, C.point_ret] at hpoint
  rw [← Option.some.inj hpoint] at hu
  cases hu

/-- The loop, compiled to one instruction for each program point. -/
def coldCode : LoopCode where
  point a :=
    if a = 0x40000100 then some .switch_return
    else if a = 0x40000104 then some .switch_end
    else if a = 0x40000200 then some .request_check
    else if a = 0x40000204 then some .loop_head
    else if a = 0x40000300 then some .yield
    else if a = 0x40000400 then some .switch_mask
    else none
  ret := 0x40000100
  point_ret := rfl
  host_saved_area := 0x40010000

/-- The context in which `world_switch` calls `vcpu_switch_asm`. -/
def coldCall : HostContext where
  x := fun _ => 0x40000100
  sp := 0x4001ffc0
  pc := 0x40000000

/-- What `vcpu_switch_asm` saved when the cold machine entered its first guest. -/
def coldArea : HostSavedArea := host_save coldCall fun _ => 0

/-- The end of `world_switch` after the first guest of the cold machine has trapped, served in `s`. -/
def coldWindow (s : State) : Host where
  loop := { Loop.returned coldEntry s with point := .switch_end, st := world_switch_return s }
  ctx := { x := fun _ => 0, sp := 0x4001ffc0, pc := 0x40000104 }
  area := coldArea

theorem coldWindow_inLoop {s : State} {sl : Slice} (h : coldEntry.handle sl = .returned s) :
    InLoop coldCode (coldWindow s) := by
  have hsaved : SavedByCall coldCode coldArea := ⟨coldCall, _, rfl, rfl⟩
  have hexit := InLoop.exit coldEntry_reachable h hsaved fun _ => 0
  exact hexit.next (l := (coldWindow s).loop) (c := (coldWindow s).ctx) rfl rfl

/-- An interrupt of EL2. -/
def coldIrq : HostException where
  exit := .irq
  pstate := 0x3c9
  x := fun _ => 0

/-- vCPU `0` of the cold machine waits, and an interrupt is taken at the end of `world_switch`: EL2
goes back to where `vcpu_switch_asm` returned to, and the frame of vCPU `0` resumes in EL2's code. -/
theorem coldWindow_irq :
    ∃ s h', coldEntry.handle (coldSlice 0x04000000) = .returned s ∧
      (coldWindow s).take coldCode coldIrq = some h' ∧ h'.ctx.pc = 0x40000100 ∧
      (h'.loop.st.vcpu 0).arch.tf.elr_el1 = 0x40000108 := by
  have hrun : (coldEntry.handle (coldSlice 0x04000000)).state?.bind (fun s =>
      ((coldWindow s).take coldCode coldIrq).map fun h =>
        (h.ctx.pc, (h.loop.st.vcpu 0).arch.tf.elr_el1)) = some (0x40000100, 0x40000108) := by decide
  obtain ⟨s, hs, hobs⟩ := Option.bind_eq_some_iff.mp hrun
  obtain ⟨h', ht, hobs⟩ := Option.map_eq_some_iff.mp hobs
  obtain ⟨hpc, helr⟩ := Prod.mk.inj hobs
  exact ⟨s, h', Outcome.eq_returned hs, ht, hpc, helr⟩

theorem host_exception_cold :
    ∃ s h', (coldWindow s).take coldCode coldIrq = some h' ∧ ¬ ResumesHost (coldWindow s) h' := by
  obtain ⟨s, h', hs, ht, -⟩ := coldWindow_irq
  have hloop := (host_exception_never_resumes coldCode).1 _ (coldWindow_inLoop hs)
  exact ⟨s, h', ht, (host_exception_never_resumes coldCode).2 _ hloop.1 rfl _ _ ht⟩

theorem host_exception_lost :
    ¬ ∀ (C : LoopCode) (h : Host), InLoop C h → h.loop.st.m.irqMasked = false →
      ∀ e h', h.take C e = some h' → ResumesHost h h' := by
  intro hall
  obtain ⟨s, h', hs, ht, hpc, -⟩ := coldWindow_irq
  have hres := hall coldCode _ (coldWindow_inLoop hs) rfl _ _ ht
  rw [hres.ctx] at hpc
  have hne : (0x40000104 : U64) ≠ 0x40000100 := by decide
  exact hne hpc

end Schism
