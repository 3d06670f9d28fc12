import Schism.Boot

/-!
# The booted state starts a run

`el2_main` satisfies the assumptions under which `Reachable` counts an entry. The cold machine below
is the concrete starting point of the examples.
-/

namespace Schism

theorem bss_clear_booted (m : Machine) (vectors : U64) : Booted (bss_clear m vectors) :=
  ⟨rfl, rfl, rfl, fun _ => rfl⟩

/-- Initialising a vCPU keeps a booted state booted. -/
theorem Booted.vcpu_init_slot {s : State} (h : Booted s) (p : VcpuPtr) (id : U32)
    (entry stack vttbr : U64) : Booted (vcpu_init_slot p id entry stack vttbr s) := by
  refine ⟨h.sched, h.latch, h.lr_count, ?_⟩
  intro q
  by_cases hq : q = p
  · subst hq
    simp [Schism.vcpu_init_slot, State.onTf, State.elapse, State.onArch, Vcpu.cleared]
  · simpa [Schism.vcpu_init_slot, State.onTf, State.elapse, State.onArch, hq] using h.no_request q

theorem Booted.print {s : State} (h : Booted s) (out : List Out) : Booted (s.print out) :=
  ⟨h.sched, h.latch, h.lr_count, h.no_request⟩

/-- The guests start a run. -/
theorem boot_reachable {s : State} (hs : Booted s) {entry₀ entry₁ : U64} {v : Option VcpuPtr} {r : Running}
    (h : vcpu_run v (boot_vcpus entry₀ entry₁ s) = some r) : Reachable r :=
  .start ((hs.vcpu_init_slot _ _ _ _ _).vcpu_init_slot _ _ _ _ _) h

/-- The run that `el2_main` starts is one of the runs considered. -/
theorem el2_boot_reachable {L : S2Layout} {a : S2Args} {entry₀ entry₁ vectors : U64} {m : Machine}
    {t : S2Tables} {s : State} {v : Option VcpuPtr} {r : Running}
    (h : el2_boot L a entry₀ entry₁ vectors m = some (t, s)) (hr : vcpu_run v s = some r) :
    Reachable r := by
  obtain ⟨t', -, hts⟩ := Option.bind_eq_some_iff.mp h
  obtain ⟨rfl, rfl⟩ := Prod.mk.inj (Option.some.inj hts)
  exact boot_reachable (bss_clear_booted (s2_program_regs_and_enable L m) vectors) hr

/-- The boot enters vCPU `0` first, on every machine. -/
theorem boot_first_entry (m : Machine) (entry₀ entry₁ vectors : U64) :
    vcpu_run (some 0) (boot_vcpus entry₀ entry₁ (bss_clear m vectors)) =
      some ⟨world_switch none 0 { boot_vcpus entry₀ entry₁ (bss_clear m vectors) with
        sched := (boot_vcpus entry₀ entry₁
          (bss_clear m vectors)).sched.vcpu_scheduler_set_current (some 0) }, 0, .loop⟩ := by
  have hc : ((boot_vcpus entry₀ entry₁
      (bss_clear m vectors)).sched.vcpu_scheduler_set_current (some 0)).current = some 0 := rfl
  simp only [vcpu_run, loop_head, hc]

/-! ## A concrete machine -/

/-- All registers are zero, and sixteen ticks pass while the first guest runs its first slice. -/
def coldMachine : Machine where
  x := fun _ => 0
  sys := fun _ => 0
  q := fun _ => (0, 0)
  mem := fun _ => 0
  el2Readable := fun _ => false
  clock := fun k => if k ≤ 3 then 0 else 16
  instant := 0
  irqMasked := false

/-- `el2_main` on the cold machine. -/
def coldBoot : State := boot_vcpus 0x40001000 0x40002000 (bss_clear coldMachine 0x40000800)

/-- The cold boot is the registration of two initialised vCPUs. -/
theorem coldBoot_eq : ∃ s, Booted s ∧
    coldBoot = s.schedule [.register (some 0), .register (some 1), .setCurrent (some 0)] :=
  ⟨_, ((bss_clear_booted _ _).vcpu_init_slot _ _ _ _ _).vcpu_init_slot _ _ _ _ _, rfl⟩

/-- The first guest entry of the cold machine. -/
def coldEntry : Running where
  st := world_switch none 0
    { coldBoot with sched := coldBoot.sched.vcpu_scheduler_set_current (some 0) }
  vcpu := 0
  site := .loop

theorem coldEntry_eq : vcpu_run (some 0) coldBoot = some coldEntry :=
  boot_first_entry coldMachine _ _ _

theorem coldEntry_reachable : Reachable coldEntry := boot_reachable (bss_clear_booted _ _) coldEntry_eq

/-- A slice that leaves zero in every register and ends with a synchronous exception. -/
def coldSlice (esr : U64) : Slice where
  x := fun _ => 0
  sys := fun _ => 0
  q := fun _ => (0, 0)
  mem := fun _ => 0
  pc := 0x40001000
  pstate := 0x3c5
  exit := .sync esr 0

/-- The entry that the cold machine reaches after the given slices. -/
def coldRun (sls : List Slice) : Option Running := sls.foldlM Running.step coldEntry

theorem Reachable.foldlM {r r' : Running} {sls : List Slice} (hr : Reachable r)
    (h : sls.foldlM Running.step r = some r') : Reachable r' := by
  induction sls generalizing r with
  | nil => cases h; exact hr
  | cons sl sls ih =>
    rw [List.foldlM_cons] at h
    obtain ⟨r₁, h₁, h⟩ := Option.bind_eq_some_iff.mp h
    exact ih (.step hr h₁) h

theorem coldRun_reachable {sls : List Slice} {r : Running} (h : coldRun sls = some r) :
    Reachable r :=
  coldEntry_reachable.foldlM h

/-- vCPU `0` waits, vCPU `1` reports and waits in its turn. -/
def coldRound : List Slice := [0x04000000, 0x58000060, 0x04000000].map coldSlice

theorem coldRun_concat (sls : List Slice) (sl : Slice) :
    coldRun (sls ++ [sl]) = (coldRun sls).bind (·.step sl) := by
  simp [coldRun, List.foldlM_append]

/-- After the round vCPU `0` is back. -/
theorem coldRound_next :
    ∃ r', coldRun coldRound = some r' ∧ NextEntry coldEntry (coldSlice 0x04000000) r' := by
  obtain ⟨r₁, h₁, hv₁⟩ : ∃ r₁, coldRun [coldSlice 0x04000000] = some r₁ ∧ r₁.vcpu = 1 :=
    Option.map_eq_some_iff.mp (by decide)
  obtain ⟨r₂, h₂, hv₂⟩ : ∃ r₂, coldRun ([coldSlice 0x04000000] ++ [coldSlice 0x58000060]) =
      some r₂ ∧ r₂.vcpu = 1 := Option.map_eq_some_iff.mp (by decide)
  obtain ⟨r₃, h₃, hv₃⟩ : ∃ r₃, coldRun (([coldSlice 0x04000000] ++ [coldSlice 0x58000060]) ++
      [coldSlice 0x04000000]) = some r₃ ∧ r₃.vcpu = 0 := Option.map_eq_some_iff.mp (by decide)
  refine ⟨r₃, h₃, hv₃, r₁, by simpa [coldRun] using h₁, ?_⟩
  rw [coldRun_concat, h₂] at h₃
  rw [coldRun_concat, h₁] at h₂
  exact .tail (.single ⟨by rw [hv₁]; decide, _, h₂⟩) ⟨by rw [hv₂]; decide, _, h₃⟩

end Schism
