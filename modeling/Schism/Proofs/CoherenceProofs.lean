import Schism.Proofs.BootProofs
import Schism.Proofs.RunProofs

/-!
# Coherence of the globals and the hardware

Four pieces of state say which guest is running: `sched_current`, the trapframe latch, `VTTBR_EL2` and
`CNTVOFF_EL2`. They agree at every entry and, after the vector has cleared the latch, at every trap.
-/

namespace Schism

/-- The globals and the hardware agree on the guest that is about to run. -/
structure EntryCoherent (r : Running) : Prop where
  current : r.st.sched.current = some r.vcpu
  latch : r.st.current_trapframe = some r.vcpu
  vttbr : r.st.m.sys .VTTBR_EL2 = (r.st.vcpu r.vcpu).arch.vttbr_el2
  cntvoff : r.st.m.sys .CNTVOFF_EL2 = (r.st.vcpu r.vcpu).arch.cntvoff_el2

/-- The globals and the hardware agree that `v` is the guest that trapped. -/
structure TrapCoherent (v : VcpuPtr) (s : State) : Prop where
  current : s.sched.current = some v
  latch : s.current_trapframe = none
  cntvoff : s.m.sys .CNTVOFF_EL2 = (s.vcpu v).arch.cntvoff_el2
  requests : ∀ p, (s.vcpu p).request_yield = true → p = v

theorem trapped_coherent {r : Running} (hr : RunInv r) (sl : Slice) :
    TrapCoherent r.vcpu (r.trapped sl) where
  current := by rw [trapped_sched hr.latch]; exact hr.current
  latch := trapped_current_trapframe hr.latch
  cntvoff := by
    have hsys : (r.exitMachine sl).sys .CNTVOFF_EL2 = r.st.m.sys .CNTVOFF_EL2 :=
      exitMachine_sys r sl .CNTVOFF_EL2
    rw [trapped_m hr.latch, trapped_arch hr.latch, hsys]
    exact hr.cntvoff
  requests p hp := hr.requests p (by rwa [trapped_request_yield hr.latch] at hp)

theorem handled_coherent {r : Running} (hr : RunInv r) {sl : Slice} {s' : State}
    (h : r.handle sl = .returned s') : TrapCoherent r.vcpu s' where
  current := by rw [handle_sched hr h]; exact hr.current
  latch := (handle_frame hr h).latch.trans (trapped_current_trapframe hr.latch)
  cntvoff := el2_exception_common_cntvoff (trapped_coherent hr sl).current
    ((handle_eq hr.latch).symm.trans h) (trapped_coherent hr sl).cntvoff
  requests := handle_requests hr h

/-- At every guest entry of every run the scheduler, the latch and the hardware name the entered
vCPU; at every call of the handler they still name the vCPU that trapped, also after the handler has
moved its virtual time, and the handler writes to no other vCPU. -/
theorem run_coherent {r : Running} (hr : Reachable r) :
    EntryCoherent r ∧
    ∀ sl : Slice, TrapCoherent r.vcpu (r.trapped sl) ∧
      ∀ s', r.handle sl = .returned s' →
        TrapCoherent r.vcpu s' ∧ ∀ p, p ≠ r.vcpu → s'.vcpu p = (r.trapped sl).vcpu p := by
  have hi := reachable_inv hr
  refine ⟨⟨hi.current, hi.latch, hi.vttbr, hi.cntvoff⟩, fun sl => ⟨trapped_coherent hi sl, ?_⟩⟩
  intro s' h
  exact ⟨handled_coherent hi h, (handle_frame hi h).others⟩

/-- The first entry of the cold machine, and its trap by a time override. -/
theorem run_coherent_cold :
    EntryCoherent coldEntry ∧
      TrapCoherent 0 (coldEntry.trapped (coldSlice 0x58000061)) :=
  ⟨(run_coherent coldEntry_reachable).1,
    ((run_coherent coldEntry_reachable).2 (coldSlice 0x58000061)).1⟩

end Schism
