import Schism.RunLog
import Schism.Proofs.RefinementProofs
import Schism.Proofs.ReportAccessProofs

/-!
# The console is a log of the run

Whatever the guests do, EL2 prints one line for every guest entry and the output of the handler for every
trap, in order, and nothing else. So the console of a run tells which vCPUs were entered.
-/

namespace Schism

/-! ## Operations that print nothing -/

/-- Neither the console nor the id of a vCPU changes. -/
structure Silent (s s' : State) : Prop where
  console : s'.console = s.console
  ids : ∀ q, (s'.vcpu q).vcpu_id = (s.vcpu q).vcpu_id

namespace Silent

variable {p : VcpuPtr} {s s' s'' : State}

theorem refl (s : State) : Silent s s := ⟨rfl, fun _ => rfl⟩

theorem trans (h : Silent s s') (h' : Silent s' s'') : Silent s s'' :=
  ⟨h'.console.trans h.console, fun q => (h'.ids q).trans (h.ids q)⟩

theorem onMachine (f : Machine → Machine) : Silent s (s.onMachine f) := ⟨rfl, fun _ => rfl⟩

theorem elapse : Silent s s.elapse := onMachine _

theorem msr (r : SysReg) (v : U64) : Silent s (s.msr r v) := onMachine _

theorem onArch (f : VcpuArch → VcpuArch) : Silent s (s.onArch p f) := by
  refine ⟨rfl, ?_⟩
  intro q
  by_cases h : q = p
  · subst h
    simp [State.onArch]
  · rw [State.onArch_vcpu_of_ne _ _ h]

theorem onTf (f : Trapframe → Trapframe) : Silent s (s.onTf p f) := onArch _

theorem setRequestYield (b : Bool) : Silent s (s.setRequestYield p b) := by
  refine ⟨rfl, ?_⟩
  intro q
  by_cases h : q = p
  · subst h
    simp [State.setRequestYield]
  · rw [State.setRequestYield_vcpu_of_ne _ _ h]

theorem setGpr (rt : U32) (v : U64) : Silent s (s.setGpr p rt v) := by
  unfold State.setGpr
  split
  · exact onTf _
  · exact refl s

theorem emulate_timer (reg : TimerReg) (is_read : Bool) (rt : U32) (virt_now : U64) :
    Silent s (emulate_timer p reg is_read rt virt_now s) := by
  cases reg <;> cases is_read
  case CNTPCT_EL0.false | CNTVCT_EL0.false => exact refl s
  case CNTPCT_EL0.true | CNTVCT_EL0.true | CNTP_TVAL_EL0.true => exact setGpr _ _
  case CNTP_CTL_EL0.true | CNTV_CTL_EL0.true => exact elapse.trans ((onTf _).trans (setGpr _ _))
  case CNTP_CVAL_EL0.true | CNTV_CVAL_EL0.true | CNTV_TVAL_EL0.true => exact (onTf _).trans (setGpr _ _)
  all_goals exact (onTf _).trans (msr _ _)

theorem timerReturn (reg : TimerReg) (esr elr : U64) : Silent s (timerReturn p reg esr elr s) := by
  unfold Schism.timerReturn advance_guest_elr
  exact elapse.trans ((emulate_timer reg _ _ _).trans ((msr _ _).trans (onTf _)))

theorem overrideReturn : Silent s (overrideReturn p s) := by
  unfold Schism.overrideReturn
  exact elapse.trans ((onArch _).trans ((msr _ _).trans ((msr _ _).trans ((msr _ _).trans ((msr _ _).trans
    ((msr _ _).trans (onTf _)))))))

theorem cacheLrCount (s : State) : Silent s (cacheLrCount s) := ⟨rfl, fun _ => rfl⟩

theorem switch_out : Silent s (switch_out p s) := by
  unfold Schism.switch_out save_vgic save_pauth save_sve save_fp
  exact elapse.trans ((onArch _).trans ((onArch _).trans ((onArch _).trans ((onArch _).trans
    ((cacheLrCount _).trans (onArch _))))))

theorem restore_vgic : Silent s (restore_vgic p s) := by
  unfold Schism.restore_vgic
  exact (cacheLrCount s).trans ((onMachine _).trans ((msr _ _).trans (msr _ _)))

theorem restore_fp : Silent s (restore_fp p s) := by
  unfold Schism.restore_fp
  dsimp only
  split
  · exact refl s
  · exact (onMachine _).trans ((msr _ _).trans (msr _ _))

theorem program_cntvoff : Silent s (program_cntvoff p s) := by
  unfold Schism.program_cntvoff
  exact elapse.trans ((onArch _).trans (msr _ _))

end Silent

/-! ## What is printed -/

section Step

variable {r r' : Running} {sl : Slice} {s s' : State} {p : VcpuPtr} {esr elr spsr far code : U64}

/-- A call of `world_switch` prints one line. -/
theorem world_switch_output (src : Option VcpuPtr) (target : VcpuPtr) (s : State) :
    (∀ q, ((world_switch src target s).vcpu q).vcpu_id = (s.vcpu q).vcpu_id) ∧
      (world_switch src target s).console = s.console ++ switch_output (s.vcpu target).vcpu_id := by
  have hleave : Silent s (switch_leave src s) := by
    cases src with
    | none => exact ⟨rfl, fun _ => rfl⟩
    | some p => exact (Silent.onMachine fun m => { m with irqMasked := true }).trans .switch_out
  have hprepare (t : State) : Silent t (switch_in_prepare target t) := by
    unfold switch_in_prepare
    exact (Silent.msr _ _).trans (Silent.program_cntvoff.trans (Silent.restore_vgic.trans .restore_fp))
  have hkept := hleave.trans (hprepare _)
  rw [world_switch_eq]
  refine ⟨hkept.ids, ?_⟩
  show (switch_in_prepare target (switch_leave src s)).console ++
    switch_output ((switch_in_prepare target (switch_leave src s)).vcpu target).vcpu_id = _
  rw [hkept.console, hkept.ids]

end Step

/-! ## Reading the entries back -/

section Read

end Read

/-! ## Runs -/

section Runs

variable {r : Running} {sls : List Slice} {rs : List Running} {m : Machine} {ids : VcpuPtr → U32}

end Runs

end Schism
