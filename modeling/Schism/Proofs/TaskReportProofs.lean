import Schism.Proofs.El2BootProofs
import Schism.Proofs.RunProofs
import Schism.Proofs.BootProofs

/-!
# The report hypercall

`handle_guest_task_report` reads the report through EL2's own translation, at an address that the guest
chose. `task_report_returns_iff` says for which addresses EL2 survives this.
-/

namespace Schism

open Bits

/-! ## Loads through EL2's translation -/

namespace Machine

variable (m : Machine)

theorem load8_bind_isSome {β : Type} (a : U64) (f : U8 → Option β) :
    ((m.load8 a).bind f).isSome ↔ m.el2Readable a = true ∧ (f (m.mem a)).isSome := by
  cases h : m.el2Readable a <;> simp [load8, h]

theorem load64_isSome_iff (a : U64) :
    (m.load64 a).isSome ↔ ∀ i < 8, m.el2Readable (a + BitVec.ofNat 64 i) = true := by
  have hzero : a + BitVec.ofNat 64 0 = a := BitVec.add_zero a
  simp only [load64, Option.bind_eq_bind, load8_bind_isSome, Option.pure_def, Option.isSome_some,
    and_true]
  constructor
  · rintro ⟨h0, h1, h2, h3, h4, h5, h6, h7⟩ i hi
    interval_cases i
    · rwa [hzero]
    all_goals assumption
  · intro h
    exact ⟨hzero ▸ h 0 (by decide), h 1 (by decide), h 2 (by decide), h 3 (by decide), h 4 (by decide),
      h 5 (by decide), h 6 (by decide), h 7 (by decide)⟩

/-- A string is read up to its terminator. -/
theorem loadString_isSome_iff (fuel : ℕ) (a : U64) :
    (m.loadString fuel a).isSome ↔ ∃ k < fuel,
      (∀ i ≤ k, m.el2Readable (a + BitVec.ofNat 64 i) = true) ∧ m.mem (a + BitVec.ofNat 64 k) = 0 := by
  induction fuel generalizing a with
  | zero => simp [loadString]
  | succ fuel ih =>
    have hzero : a + BitVec.ofNat 64 0 = a := BitVec.add_zero a
    rw [loadString, Option.bind_eq_bind, load8_bind_isSome]
    by_cases hc : m.mem a = 0
    · -- the terminator is the first byte
      simp only [hc, if_true, Option.pure_def, Option.isSome_some, and_true]
      constructor
      · intro hread
        refine ⟨0, Nat.succ_pos _, ?_, by rw [hzero, hc]⟩
        intro i hi
        rw [Nat.le_zero.mp hi, hzero, hread]
      · rintro ⟨k, -, hall, -⟩
        exact hzero ▸ hall 0 (Nat.zero_le k)
    · have htail : ((m.loadString fuel (a + 1)).bind fun cs => some (m.mem a :: cs)).isSome ↔
          (m.loadString fuel (a + 1)).isSome := by
        cases m.loadString fuel (a + 1) <;> simp
      simp only [if_neg hc, Option.bind_eq_bind, Option.pure_def]
      rw [htail, ih (a + 1)]
      simp only [add_one_ofNat]
      constructor
      · rintro ⟨hread, k, hk, hall, hnul⟩
        refine ⟨k + 1, Nat.succ_lt_succ hk, ?_, hnul⟩
        intro i hi
        cases i with
        | zero => rw [hzero, hread]
        | succ i => exact hall i (Nat.le_of_succ_le_succ hi)
      · rintro ⟨k, hk, hall, hnul⟩
        refine ⟨hzero ▸ hall 0 (Nat.zero_le k), ?_⟩
        cases k with
        | zero => exact absurd (hzero ▸ hnul) hc
        | succ k =>
          refine ⟨k, Nat.lt_of_succ_lt_succ hk, ?_, hnul⟩
          intro i hi
          exact hall (i + 1) (Nat.succ_le_succ hi)

/-- The whole address space is as long as the longest string. -/
theorem loadString_whole_isSome_iff (a : U64) :
    (m.loadString (2 ^ 64) a).isSome ↔ ∃ k,
      (∀ i ≤ k, m.el2Readable (a + BitVec.ofNat 64 i) = true) ∧ m.mem (a + BitVec.ofNat 64 k) = 0 := by
  rw [loadString_isSome_iff]
  constructor
  · rintro ⟨k, -, hk⟩
    exact ⟨k, hk⟩
  · rintro ⟨k, hall, hnul⟩
    have hmod : BitVec.ofNat 64 (k % 2 ^ 64) = BitVec.ofNat 64 k := by
      apply BitVec.eq_of_toNat_eq
      rw [BitVec.toNat_ofNat, BitVec.toNat_ofNat, Nat.mod_mod]
    exact ⟨k % 2 ^ 64, Nat.mod_lt _ (by decide), fun i hi => hall i (hi.trans (Nat.mod_le _ _)),
      by rw [hmod, hnul]⟩

end Machine

/-- A step that succeeds or fails, before steps whose success does not depend on its value. -/
theorem bind_isSome_iff {α β : Type} {o : Option α} {f : α → Option β} {P : Prop}
    (hf : ∀ a, (f a).isSome ↔ P) : (o.bind f).isSome ↔ o.isSome ∧ P := by
  cases o with
  | none => simp
  | some a => simp [hf a]

/-- The report is read completely: the description up to its terminator, and the six quadwords behind
it. -/
theorem task_report_output_isSome_iff (m : Machine) (vcpu_id : U32) (res : U64) :
    (task_report_output m vcpu_id res).isSome ↔
      (∃ k, (∀ i ≤ k, m.el2Readable (res + 8 + BitVec.ofNat 64 i) = true) ∧
        m.mem (res + 8 + BitVec.ofNat 64 k) = 0) ∧
      ∀ j < 48, m.el2Readable (res + 40 + BitVec.ofNat 64 j) = true := by
  have hsteps : (task_report_output m vcpu_id res).isSome ↔
      (m.loadString (2 ^ 64) (res + 8)).isSome ∧ (m.load64 (res + 40)).isSome ∧
        (m.load64 (res + 48)).isSome ∧ (m.load64 (res + 56)).isSome ∧ (m.load64 (res + 64)).isSome ∧
        (m.load64 (res + 72)).isSome ∧ (m.load64 (res + 80)).isSome ∧ True := by
    unfold task_report_output
    refine bind_isSome_iff fun desc => bind_isSome_iff fun data0 => bind_isSome_iff fun data1 =>
      bind_isSome_iff fun before => bind_isSome_iff fun after => bind_isSome_iff fun target =>
      bind_isSome_iff ?_
    intro memwalk
    simp only [apply_ite Option.isSome, Option.pure_def, Option.isSome_some, ite_self]
  -- quadword `b` starts `8 * b` bytes after the first
  have hword : ∀ b : ℕ, (m.load64 (res + 40 + BitVec.ofNat 64 (8 * b))).isSome ↔
      ∀ i < 8, m.el2Readable (res + 40 + BitVec.ofNat 64 (8 * b + i)) = true := by
    intro b
    rw [Machine.load64_isSome_iff]
    simp only [BitVec.add_assoc, ← BitVec.ofNat_add]
  have haddr : ∀ b : ℕ, res + BitVec.ofNat 64 (40 + 8 * b) = res + 40 + BitVec.ofNat 64 (8 * b) := by
    intro b
    rw [BitVec.add_assoc, BitVec.ofNat_add]
    rfl
  rw [hsteps, Machine.loadString_whole_isSome_iff, and_true]
  refine and_congr_right ?_
  intro _
  constructor
  · rintro ⟨h0, h1, h2, h3, h4, h5⟩ j hj
    have hblock : (m.load64 (res + 40 + BitVec.ofNat 64 (8 * (j / 8)))).isSome := by
      rw [← haddr]
      have hb : j / 8 < 6 := by omega
      interval_cases j / 8 <;> assumption
    have hbyte := (hword (j / 8)).mp hblock (j % 8) (Nat.mod_lt j (by decide))
    rwa [Nat.div_add_mod] at hbyte
  · intro h
    have hblock : ∀ b < 6, (m.load64 (res + BitVec.ofNat 64 (40 + 8 * b))).isSome := by
      intro b hb
      rw [haddr, hword]
      exact fun i hi => h _ (by omega)
    exact ⟨hblock 0 (by decide), hblock 1 (by decide), hblock 2 (by decide), hblock 3 (by decide),
      hblock 4 (by decide), hblock 5 (by decide)⟩

/-! ## EL2's translation along a run -/

section Readable

variable {r r' : Running} {sl : Slice}

theorem timerReturn_el2Readable (p : VcpuPtr) (reg : TimerReg) (esr elr : U64) (s : State) :
    (timerReturn p reg esr elr s).m.el2Readable = s.m.el2Readable := by
  have hadvance : ∀ s' : State, (advance_guest_elr p elr s').m.el2Readable = s'.m.el2Readable :=
    fun _ => rfl
  rw [timerReturn, hadvance]
  cases reg <;> cases esr_sys64_is_read esr <;> simp only [emulate_timer, setGpr_m] <;> rfl

theorem el2_exception_common_el2Readable {esr elr spsr far code : U64} {s s' : State} {p : VcpuPtr}
    (hp : s.sched.current = some p) (h : el2_exception_common esr elr spsr far code s = .returned s') :
    s'.m.el2Readable = s.m.el2Readable := by
  rcases el2_exception_common_cases hp h with
    ⟨-, rfl⟩ | ⟨-, -, out, rfl⟩ | ⟨-, -, rfl⟩ | ⟨-, reg, -, rfl⟩
  · simp only [handle_wfx, State.msr, State.onMachine_sched, State.print_sched, hp]
    rfl
  · rfl
  · rfl
  · exact timerReturn_el2Readable p reg esr elr s

theorem world_switch_el2Readable (src : Option VcpuPtr) (target : VcpuPtr) (s : State) :
    (world_switch src target s).m.el2Readable = s.m.el2Readable := by
  have hload : ∀ (m : Machine) (fp : Fp), (m.loadFp fp).el2Readable = m.el2Readable := by
    intro m fp
    unfold Machine.loadFp
    split <;> rfl
  have hleave : (switch_leave src s).m.el2Readable = s.m.el2Readable := by cases src <;> rfl
  rw [world_switch_eq, switch_in_m, vcpu_switch_asm_el2Readable, Machine.msr_el2Readable, ← hleave]
  simp only [switch_in_prepare, restore_fp_eq, State.onMachine_m, hload]
  rfl

/-- Nothing that EL2 does after the boot changes its own translation. -/
theorem step_el2Readable (hr : RunInv r) (h : r.step sl = some r') :
    r'.st.m.el2Readable = r.st.m.el2Readable := by
  obtain ⟨s', hs', -, hcase⟩ := step_cases hr.latch hr.current h
  have hcur : (r.trapped sl).sched.current = some r.vcpu := by
    rw [trapped_sched hr.latch, hr.current]
  have hkept : s'.m.el2Readable = r.st.m.el2Readable := by
    rw [el2_exception_common_el2Readable hcur ((handle_eq hr.latch).symm.trans hs'), trapped_m hr.latch,
      exitMachine_el2Readable]
  rcases hcase with ⟨-, rfl⟩ | ⟨-, -, next, target, -, rfl⟩
  · rw [world_switch_el2Readable, settle_m]
    exact hkept
  · rw [world_switch_el2Readable]
    exact hkept

/-- One step of a run. -/
def Stepped (r r' : Running) : Prop := ∃ sl, r.step sl = some r'

/-- Every entry of a run is reachable and has the translation of the boot. -/
theorem run_el2Readable {s : State} {ops : List SchedOp} {v : Option VcpuPtr} {r₀ : Running}
    (hs : Booted s) (h₀ : vcpu_run v (s.schedule ops) = some r₀)
    (hrun : Relation.ReflTransGen Stepped r₀ r) :
    Reachable r ∧ r.st.m.el2Readable = s.m.el2Readable := by
  induction hrun with
  | refl =>
    refine ⟨.start hs h₀, ?_⟩
    unfold vcpu_run at h₀
    cases v with
    | none => cases h₀
    | some p =>
      simp only [loop_head] at h₀
      split at h₀
      · cases h₀
      · cases h₀
        exact world_switch_el2Readable none _ _
  | tail hpath hstep ih =>
    obtain ⟨sl, hstep⟩ := hstep
    exact ⟨.step ih.1 hstep, (step_el2Readable (reachable_inv ih.1) hstep).trans ih.2⟩

end Readable

/-! ## The hypercall -/

section Report

variable {r : Running} {sl : Slice} {esr far : U64}

/-- A report hypercall returns exactly when the pointer is `NULL` or the whole report can be read. -/
theorem report_returned_iff (hr : RunInv r) (hexit : sl.exit = .sync esr far) (hec : esr_ec esr = 0x16)
    (himm : esr &&& 0xffff = 0x60) :
    (∃ s, r.handle sl = .returned s) ↔ sl.x 1 = 0 ∨
      ((∃ k, (∀ i ≤ k, r.st.m.el2Readable (sl.x 1 + 8 + BitVec.ofNat 64 i) = true) ∧
        sl.mem (sl.x 1 + 8 + BitVec.ofNat 64 k) = 0) ∧
      ∀ j < 48, r.st.m.el2Readable (sl.x 1 + 40 + BitVec.ofNat 64 j) = true) := by
  have hesr : r.trapEsr sl = esr := by
    have h : r.trapEsr sl = _ := exitMachine_sys r sl .ESR_EL2
    simpa only [hexit] using h
  have hne : ¬ esr_ec esr = 0x01 := by
    rw [hec]
    decide
  have hcur : (r.trapped sl).sched.current = some r.vcpu := by
    rw [trapped_sched hr.latch, hr.current]
  have hptr : ((r.trapped sl).vcpu r.vcpu).arch.tf.regs 1 = sl.x 1 := by
    rw [trapped_arch hr.latch, el2_vector_save_eq, exitMachine_x]
  rw [handle_eq hr.latch, hesr, ← exitMachine_mem r sl, ← exitMachine_el2Readable r sl,
    ← task_report_output_isSome_iff _ ((r.trapped sl).vcpu r.vcpu).vcpu_id]
  unfold el2_exception_common handle_guest_hvc handle_guest_task_report
  simp only [if_neg hne, if_pos hec, if_pos himm, hcur, hptr, trapped_m hr.latch]
  by_cases hz : sl.x 1 = 0
  · simp [hz]
  · simp only [hz, false_or]
    cases task_report_output (r.exitMachine sl) ((r.trapped sl).vcpu r.vcpu).vcpu_id (sl.x 1) <;> simp

/-- In every run after a boot with the tables that `el2_main` builds, EL2 returns from a report
hypercall exactly when the guest passes `NULL`, or a report in the pages of the image or the UART: its
description must end and its quadwords must lie there. -/
theorem task_report_returns_iff {L : El2Layout} {other : U64 → BitVec 9 → U64} {regs : El2Regs}
    {t₀ t : El2Tables} {z : Sections} (htop : z.stack_top ≤ 2 ^ 39)
    (ht : El2.el2_main_map L z t₀ = some t) {s : State} {ops : List SchedOp} {v : Option VcpuPtr}
    {r₀ : Running} (hs : Booted s)
    (hread : ∀ a, s.m.el2Readable a = (el2_walk L other t (el2_mmu_enable L regs) a).isSome)
    (h₀ : vcpu_run v (s.schedule ops) = some r₀) (hrun : Relation.ReflTransGen Stepped r₀ r)
    (hexit : sl.exit = .sync esr far) (hec : esr_ec esr = 0x16) (himm : esr &&& 0xffff = 0x60) :
    (∃ s', r.handle sl = .returned s') ↔ sl.x 1 = 0 ∨
      ((∃ k, (∀ i ≤ k, z.El2Mapped (sl.x 1 + 8 + BitVec.ofNat 64 i).toNat) ∧
        sl.mem (sl.x 1 + 8 + BitVec.ofNat 64 k) = 0) ∧
      ∀ j < 48, z.El2Mapped (sl.x 1 + 40 + BitVec.ofNat 64 j).toNat) := by
  obtain ⟨hr, hkept⟩ := run_el2Readable hs h₀ hrun
  have hmapped : ∀ a, r.st.m.el2Readable a = true ↔ z.El2Mapped a.toNat := by
    intro a
    rw [hkept, hread, Sections.boot_walk htop ht, Sections.bootMap_isSome_iff]
  rw [report_returned_iff (reachable_inv hr) hexit hec himm]
  simp only [hmapped]

end Report

/-! ## A concrete report -/

/-- The cold machine, with EL2's translation of the unaligned image. -/
def reportMachine : Machine :=
  { coldMachine with el2Readable := fun a => (unalignedImage.bootMap a).isSome }

/-- EL2 after the boot of that machine, with its two vCPUs not yet registered. -/
def reportInit : State :=
  vcpu_init_slot 1 1 0x40002000 0x400A0000 0
    (vcpu_init_slot 0 0 0x40001000 0x40080000 0 (bss_clear reportMachine 0x40000800))

theorem reportInit_booted : Booted reportInit :=
  ((bss_clear_booted _ _).vcpu_init_slot _ _ _ _ _).vcpu_init_slot _ _ _ _ _

def reportOps : List SchedOp := [.register (some 0), .register (some 1), .setCurrent (some 0)]

/-- The first guest entry. -/
def reportEntry : Running where
  st := world_switch none 0 { reportInit.schedule reportOps with
    sched := (reportInit.schedule reportOps).sched.vcpu_scheduler_set_current (some 0) }
  vcpu := 0
  site := .loop

theorem reportEntry_eq : vcpu_run (some 0) (reportInit.schedule reportOps) = some reportEntry :=
  boot_first_entry reportMachine _ _ _

/-- The guest passes `x1` to the report hypercall, in a memory of zeros. -/
def reportSlice (x1 : U64) : Slice := { coldSlice 0x58000060 with x := fun _ => x1 }

theorem reportInit_el2Readable {t : El2Tables}
    (ht : El2.el2_main_map unalignedTables unalignedImage S2Tables.cleared = some t) (a : U64) :
    reportInit.m.el2Readable a = (el2_walk unalignedTables (fun _ _ => 0) t
      (el2_mmu_enable unalignedTables ⟨0, 0, 0, 0⟩) a).isSome := by
  rw [Sections.boot_walk (by decide) ht]
  rfl

theorem unaligned_boots :
    ∃ t, El2.el2_main_map unalignedTables unalignedImage S2Tables.cleared = some t :=
  Option.isSome_iff_exists.mp ((Sections.boot_isSome_iff (by decide) _ _).mpr
    (Sections.small_fits (by decide)))

/-- A report at the start of `.bss`. -/
theorem task_report_returns_bss : ∃ t,
    El2.el2_main_map unalignedTables unalignedImage S2Tables.cleared = some t ∧
    unalignedImage.stack_top ≤ 2 ^ 39 ∧ Booted reportInit ∧
    (∀ a, reportInit.m.el2Readable a = (el2_walk unalignedTables (fun _ _ => 0) t
      (el2_mmu_enable unalignedTables ⟨0, 0, 0, 0⟩) a).isSome) ∧
    vcpu_run (some 0) (reportInit.schedule reportOps) = some reportEntry ∧
    ((∃ s', reportEntry.handle (reportSlice 0x4000c000) = .returned s') ↔
      (reportSlice 0x4000c000).x 1 = 0 ∨
      ((∃ k, (∀ i ≤ k, unalignedImage.El2Mapped
          ((reportSlice 0x4000c000).x 1 + 8 + BitVec.ofNat 64 i).toNat) ∧
        (reportSlice 0x4000c000).mem ((reportSlice 0x4000c000).x 1 + 8 + BitVec.ofNat 64 k) = 0) ∧
      ∀ j < 48, unalignedImage.El2Mapped
        ((reportSlice 0x4000c000).x 1 + 40 + BitVec.ofNat 64 j).toNat)) := by
  obtain ⟨t, ht⟩ := unaligned_boots
  exact ⟨t, ht, by decide, reportInit_booted, reportInit_el2Readable ht, reportEntry_eq,
    task_report_returns_iff (by decide) ht reportInit_booted (reportInit_el2Readable ht) reportEntry_eq
      .refl rfl (by decide) (by decide)⟩

/-- A guest that reports from its private region, at `guest_private_region(0)`, stops EL2: no section of
the image reaches up to `GUEST_WORK_BASE`. -/
theorem report_from_private_region_hangs : ∃ t,
    El2.el2_main_map unalignedTables unalignedImage S2Tables.cleared = some t ∧ Booted reportInit ∧
    (∀ a, reportInit.m.el2Readable a = (el2_walk unalignedTables (fun _ _ => 0) t
      (el2_mmu_enable unalignedTables ⟨0, 0, 0, 0⟩) a).isSome) ∧
    vcpu_run (some 0) (reportInit.schedule reportOps) = some reportEntry ∧
    (reportSlice 0x42000000).x 1 = 0x42000000 ∧
    ¬ ∃ s', reportEntry.handle (reportSlice 0x42000000) = .returned s' := by
  obtain ⟨t, ht⟩ := unaligned_boots
  refine ⟨t, ht, reportInit_booted, reportInit_el2Readable ht, reportEntry_eq, rfl, ?_⟩
  intro hret
  obtain ⟨hr, hkept⟩ := run_el2Readable reportInit_booted reportEntry_eq .refl
  rcases (report_returned_iff (reachable_inv hr) rfl (by decide) (by decide)).mp hret
    with hz | ⟨-, hwords⟩
  · exact absurd hz (by decide)
  · have hread := hwords 0 (by decide)
    rw [hkept, reportInit_el2Readable ht, Sections.boot_walk (by decide) ht,
      Sections.bootMap_isSome_iff] at hread
    exact absurd hread (by decide)

end Schism
