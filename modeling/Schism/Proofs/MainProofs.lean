import Schism.Main
import Schism.Proofs.ContextProofs
import Schism.Proofs.IsolationProofs
import Schism.Proofs.RunLogProofs
import Schism.Proofs.SurvivalProofs

/-!
# From `el2_main` to the guests

`el2_main` hangs when EL2's own tables do not suffice. Otherwise it enters the first guest, and what it has
set up holds at every guest entry from then on.
-/

namespace Schism

open PageTables S2

/-! ## The two ways of `el2_main` -/

/-- EL2's own mapping of the image fits the table pools. -/
def BootImage.Fits (K : BootImage) : Prop :=
  (regions K.bootCalls 30).card ≤ EL2_MAX_L2_TABLES ∧ (regions K.bootCalls 21).card ≤ EL2_MAX_L3_TABLES

/-- The messages of `el2_main` up to the call of `vcpu_run`. -/
def bootMessages : List Out :=
  [.puts "EL2: Hello from EL2!\n", .puts "EL2: Stage-1 MMU enabled.\n", .puts "EL2: Stage-2 tables built.\n",
    .puts "EL2: Stage-2 MMU enabled.\n", .puts "EL2: Launching initial VCPU...\n"]

/-- The first guest entry, from the state in which the guests have been registered. -/
def firstEntry (s : State) : Running where
  st := world_switch none 0
    { s.print bootMessages with sched := s.sched.vcpu_scheduler_set_current (some 0) }
  vcpu := 0
  site := .loop

/-- The machine once EL2's own translation is on. -/
def BootImage.machine (K : BootImage) (other : U64 → BitVec 9 → U64) (el2 : El2Tables) (r : El2Regs)
    (m : Machine) : Machine :=
  { m with el2Readable := fun a => (el2_walk K.el2 other el2 (el2_mmu_enable K.el2 r) a).isSome }

section Boot

variable {K : BootImage} {other : U64 → BitVec 9 → U64} {el2 : El2Tables} {r : El2Regs} {m : Machine}
  {L : S2Layout} {entry₀ entry₁ vectors : U64} {t : S2Tables} {s : State}

/-! ### Messages and machines go their own ways -/

theorem print_print (s : State) (out out' : List Out) : (s.print out).print out' = s.print (out ++ out') := by
  unfold State.print
  rw [List.append_assoc]

theorem onMachine_print (s : State) (f : Machine → Machine) (out : List Out) :
    (s.print out).onMachine f = (s.onMachine f).print out := rfl

theorem vcpu_init_slot_print (p : VcpuPtr) (id : U32) (entry stack vttbr : U64) (s : State) (out : List Out) :
    vcpu_init_slot p id entry stack vttbr (s.print out) =
      (vcpu_init_slot p id entry stack vttbr s).print out := rfl

theorem boot_vcpus_print (entry₀ entry₁ : U64) (s : State) (out : List Out) :
    boot_vcpus entry₀ entry₁ (s.print out) = (boot_vcpus entry₀ entry₁ s).print out := by
  unfold boot_vcpus
  dsimp only
  rw [vcpu_init_slot_print, vcpu_init_slot_print]
  rfl

/-! ### The result -/

/-- Without tables for its own translation EL2 hangs behind its first message. -/
theorem main_hangs (other : U64 → BitVec 9 → U64) (r : El2Regs) (m : Machine)
    (h : El2.el2_main_map K.el2 K.toSections S2Tables.cleared = none) :
    ∃ s, Main.el2_main K other r m = .hung s ∧ s.console = [.puts "EL2: Hello from EL2!\n"] := by
  refine ⟨(bss_clear m K.guest_el1_vectors).print [.puts "EL2: Hello from EL2!\n"], ?_, rfl⟩
  rw [Main.el2_main, h]
  rfl

/-- The state that the boot has set up for the guests. -/
theorem el2_boot_state {a : S2Args} (h : el2_boot L a entry₀ entry₁ vectors m = some (t, s)) :
    s = boot_vcpus entry₀ entry₁ (bss_clear (s2_program_regs_and_enable L m) vectors) := by
  obtain ⟨t', -, hts⟩ := Option.bind_eq_some_iff.mp h
  exact (Prod.mk.inj (Option.some.inj hts)).2.symm

/-- Both guests are in the queue. -/
theorem el2_boot_sched {a : S2Args} (h : el2_boot L a entry₀ entry₁ vectors m = some (t, s)) :
    s.sched =
      [SchedOp.register (some 0), .register (some 1), .setCurrent (some 0)].foldl SchedOp.apply .empty := by
  rw [el2_boot_state h]
  rfl

theorem firstEntry_run (h : el2_main L entry₀ entry₁ vectors m = some (t, s)) :
    vcpu_run (some 0) (s.print bootMessages) = some (firstEntry s) := by
  have hsched : (s.print bootMessages).sched = s.sched := rfl
  have hc : (s.sched.vcpu_scheduler_set_current (some 0)).current = some 0 := by
    rw [el2_boot_sched h]
    rfl
  simp only [vcpu_run, loop_head, hsched, hc]
  rfl

/-- The tables for the guests always suffice. -/
theorem main_runs (other : U64 → BitVec 9 → U64) (r : El2Regs) (m : Machine)
    (h : El2.el2_main_map K.el2 K.toSections S2Tables.cleared = some el2) :
    ∃ s2 s, el2_main K.s2 K.guest_counter_os K.guest_memwalk_os K.guest_el1_vectors
        (K.machine other el2 r m) = some (s2, s) ∧
      Main.el2_main K other r m = .running el2 (el2_mmu_enable K.el2 r) s2 (firstEntry s) := by
  obtain ⟨s2, s, hs⟩ := el2_boot_returns slotWindow_main K.s2 K.guest_counter_os K.guest_memwalk_os
    K.guest_el1_vectors (K.machine other el2 r m)
  have hbuild : S2.s2_build_tables_identity K.s2 0x40000000 0x40000000 0x40000000 1 S2_VM_GUARD_BYTES 1 1 1
      S2Tables.cleared = some s2 := (s2_build_cleared K.s2 el2_main_args).trans (el2_boot_eq_some hs).1
  refine ⟨s2, s, hs, ?_⟩
  rw [Main.el2_main, h, MainResult.build, hbuild, MainResult.build]
  have hclear (m : Machine) (v : U64) (f : Machine → Machine) :
      (bss_clear m v).onMachine f = bss_clear (f m) v := rfl
  have hrun := firstEntry_run hs
  rw [el2_boot_state hs] at hrun ⊢
  rw [bootMessages, BootImage.machine] at hrun
  simp only [onMachine_print, boot_vcpus_print, print_print, hclear, List.cons_append, List.nil_append, hrun]
  rfl

/-- Whatever `el2_main` enters is entered in this way. -/
theorem main_running {regs : El2Regs} {s2 : S2Tables} {r₀ : Running}
    (h : Main.el2_main K other r m = .running el2 regs s2 r₀) :
    El2.el2_main_map K.el2 K.toSections S2Tables.cleared = some el2 ∧ regs = el2_mmu_enable K.el2 r ∧
      ∃ s, el2_main K.s2 K.guest_counter_os K.guest_memwalk_os K.guest_el1_vectors (K.machine other el2 r m) =
          some (s2, s) ∧ r₀ = firstEntry s := by
  cases hmap : El2.el2_main_map K.el2 K.toSections S2Tables.cleared with
  | none =>
    obtain ⟨s, hs, -⟩ := main_hangs other r m hmap
    cases hs.symm.trans h
  | some el2' =>
    obtain ⟨s2', s, hs, hrun⟩ := main_runs other r m hmap
    cases hrun.symm.trans h
    exact ⟨rfl, rfl, s, hs, rfl⟩

/-- The entries that follow are those of the runs considered elsewhere. -/
theorem firstEntry_reachable (h : el2_main L entry₀ entry₁ vectors m = some (t, s)) :
    Reachable (firstEntry s) := by
  have hrun := firstEntry_run h
  rw [el2_boot_state h, ← boot_vcpus_print] at hrun
  rw [el2_boot_state h]
  exact boot_reachable ((bss_clear_booted _ _).print _) hrun

theorem firstEntry_console (h : el2_main L entry₀ entry₁ vectors m = some (t, s)) :
    (firstEntry s).st.console = bootMessages ++ switch_output 0 := by
  rw [firstEntry, (world_switch_output none 0 _).2, el2_boot_state h]
  rfl

theorem firstEntry_vttbr (h : el2_main L entry₀ entry₁ vectors m = some (t, s)) {p : VcpuPtr}
    (hp : p ∈ guests) : ((firstEntry s).st.vcpu p).arch.vttbr_el2 &&& oaMask = L.s2_l1 := by
  rw [firstEntry, world_switch_vttbr]
  exact (el2_boot_eq_some h).2 p hp

theorem firstEntry_el2Readable (h : el2_main L entry₀ entry₁ vectors m = some (t, s)) :
    (firstEntry s).st.m.el2Readable = m.el2Readable := by
  rw [firstEntry, world_switch_el2Readable, el2_boot_state h]
  rfl

theorem firstEntry_members (h : el2_main L entry₀ entry₁ vectors m = some (t, s)) {p : VcpuPtr}
    (hp : p ∈ (firstEntry s).st.sched.members) : p ∈ guests := by
  rw [firstEntry, world_switch_sched, el2_boot_sched h] at hp
  obtain ⟨i, hi, hq⟩ := hp
  have hi' : i < 2 := hi
  interval_cases i
  · have hp0 := Option.some.inj hq
    exact List.mem_pair.mpr (.inl hp0.symm)
  · have hp1 := Option.some.inj hq
    exact List.mem_pair.mpr (.inr hp1.symm)

end Boot

/-! ## Along a run -/

section Run

variable {r r' : Running} {sl : Slice}

/-- No step changes the root of a vCPU. -/
theorem step_vttbr (hr : RunInv r) (h : r.step sl = some r') (p : VcpuPtr) :
    (r'.st.vcpu p).arch.vttbr_el2 = (r.st.vcpu p).arch.vttbr_el2 := by
  obtain ⟨s', -, hframe, hcase⟩ := step_cases hr.latch hr.current h
  have hkept : (s'.vcpu p).arch.vttbr_el2 = (r.st.vcpu p).arch.vttbr_el2 := by
    by_cases hp : p = r.vcpu
    · rw [hp, hframe.vttbr, trapped_arch hr.latch]
    · rw [hframe.others p hp, trapped_vcpu_of_ne hr.latch hp]
  rcases hcase with ⟨-, rfl⟩ | ⟨-, -, next, target, -, rfl⟩
  · rw [world_switch_vttbr, settle_arch, hkept]
  · rw [world_switch_vttbr, yieldState_arch, hkept]

/-- What no run changes. -/
structure Established (r r' : Running) : Prop where
  reachable : Reachable r'
  members : r'.st.sched.members = r.st.sched.members
  vttbr : ∀ p, (r'.st.vcpu p).arch.vttbr_el2 = (r.st.vcpu p).arch.vttbr_el2
  el2Readable : r'.st.m.el2Readable = r.st.m.el2Readable

theorem run_established (hr : Reachable r) (h : Relation.ReflTransGen Stepped r r') : Established r r' := by
  induction h with
  | refl => exact ⟨hr, rfl, fun _ => rfl, rfl⟩
  | tail _ hstep ih =>
    obtain ⟨sl, hstep⟩ := hstep
    have hi := reachable_inv ih.reachable
    exact ⟨.step ih.reachable hstep, (step_sched hi hstep).2.2.trans ih.members,
      fun p => (step_vttbr hi hstep p).trans (ih.vttbr p), (step_el2Readable hi hstep).trans ih.el2Readable⟩

end Run

/-! ## The start of a guest -/

/-- The frame of a vCPU that has never run. -/
structure Trapframe.Fresh (tf : Trapframe) (id entry stack : U64) : Prop where
  regs : tf.regs = Function.update (fun _ => 0) 0 id
  elr : tf.elr_el1 = entry
  sp : tf.sp_el1 = stack
  spsr : tf.spsr_el1 = 0x3c5

/-- A guest starts at its entry point, at EL1 with all exceptions masked and a stack of its own, with its id
in `x0` and nothing in the other registers. -/
structure Starts (r : Running) (id entry stack : U64) : Prop where
  x0 : r.st.m.x 0 = id
  x : ∀ i, i ≠ 0 → r.st.m.x i = 0
  pc : r.st.m.sys .ELR_EL2 = entry
  sp : r.st.m.sys .SP_EL1 = stack
  pstate : r.st.m.sys .SPSR_EL2 = 0x3c5

section Start

variable {L : S2Layout} {entry₀ entry₁ vectors id entry stack : U64} {m : Machine} {t : S2Tables} {s : State}
  {r r' : Running}

theorem Trapframe.Fresh.starts (h : (r.st.vcpu r.vcpu).arch.tf.Fresh id entry stack) (he : Entered r) :
    Starts r id entry stack where
  x0 := by rw [he.loaded.x, h.regs, Function.update_self]
  x i hi := by rw [he.loaded.x, h.regs, Function.update_of_ne hi]
  pc := he.loaded.elr.trans h.elr
  sp := he.loaded.sp_el1.trans h.sp
  pstate := he.loaded.spsr.trans h.spsr

theorem firstEntry_fresh (h : el2_main L entry₀ entry₁ vectors m = some (t, s)) :
    ((firstEntry s).st.vcpu 0).arch.tf.Fresh 0 entry₀ 0x40080000 ∧
      ((firstEntry s).st.vcpu 1).arch.tf.Fresh 1 entry₁ 0x400A0000 := by
  rw [firstEntry, world_switch_tf, world_switch_tf, el2_boot_state h]
  exact ⟨⟨rfl, rfl, rfl, rfl⟩, ⟨rfl, rfl, rfl, rfl⟩⟩

end Start

/-! ## The results -/

section Main

variable {K : BootImage} {other : U64 → BitVec 9 → U64} {el2 : El2Tables} {r regs : El2Regs} {m : Machine}
  {s2 : S2Tables} {r₀ r' : Running}

/-- An image that fits has its messages printed, is mapped with the permissions of its sections, and its
first guest is entered at its entry point; any other image hangs behind the first message. `el2_main` never
returns. -/
theorem el2_main_launches (K : BootImage) (other : U64 → BitVec 9 → U64) (r : El2Regs) (m : Machine) :
    (K.Fits → ∃ el2 s2 r₀, Main.el2_main K other r m = .running el2 (el2_mmu_enable K.el2 r) s2 r₀ ∧
      r₀.st.console = bootMessages ++ switch_output 0 ∧
      K.Protected (el2_walk K.el2 other el2 (el2_mmu_enable K.el2 r)) ∧
      Reachable r₀ ∧ r₀.vcpu = 0 ∧ Starts r₀ 0 K.guest_counter_os 0x40080000) ∧
    (¬ K.Fits → ∃ s, Main.el2_main K other r m = .hung s ∧ s.console = [.puts "EL2: Hello from EL2!\n"]) := by
  have htop : K.stack_top ≤ 2 ^ 39 := K.image_below.trans (by decide)
  have hfits : (El2.el2_main_map K.el2 K.toSections S2Tables.cleared).isSome ↔ K.Fits :=
    Sections.boot_isSome_iff htop K.el2 S2Tables.cleared
  constructor
  · intro hK
    obtain ⟨el2, hmap⟩ := Option.isSome_iff_exists.mp (hfits.mpr hK)
    obtain ⟨s2, s, hs, hrun⟩ := main_runs other r m hmap
    have hreach := firstEntry_reachable hs
    refine ⟨el2, s2, firstEntry s, hrun, firstEntry_console hs, ?_, hreach, rfl, ?_⟩
    · rw [funext (Sections.boot_walk htop hmap other r)]
      exact K.bootMap_protected
    · exact (firstEntry_fresh hs).1.starts (reachable_entered hreach)
  · intro hK
    rw [← not_congr hfits, Option.not_isSome_iff_eq_none] at hK
    exact main_hangs other r m hK

/-- The small image with its symbols. -/
def packedBoot : BootImage where
  toLinkLayout := packedImage
  el2 := {
    el2_l1 := 0x40461000
    l2_pool := 0x40462000
    l3_pool := 0x40482000
    l1_aligned := by decide
    l2_aligned := by decide
    l3_aligned := by decide
    l1_below := by decide
    l2_below := by decide
    l3_below := by decide
    l1_l2 := by decide
    l1_l3 := by decide
    l2_l3 := by decide }
  el2_arrays := ⟨rfl, rfl, rfl⟩
  guest_counter_os := 0x40001000
  guest_memwalk_os := 0x40002000
  guest_el1_vectors := 0x40000800

/-- The registers of EL2's translation after reset. -/
def resetRegs : El2Regs where
  ttbr0_el2 := 0
  tcr_el2 := 0
  mair_el2 := 0
  sctlr_el2 := 0

theorem packed_fits : packedBoot.Fits := Sections.small_fits (by decide)

theorem el2_main_launches_packed : ∃ el2 s2 r₀,
    Main.el2_main packedBoot (fun _ _ => 0) resetRegs coldMachine =
      .running el2 (el2_mmu_enable packedBoot.el2 resetRegs) s2 r₀ ∧
    Starts r₀ 0 0x40001000 0x40080000 := by
  obtain ⟨el2, s2, r₀, hrun, -, -, -, -, hstart⟩ :=
    (el2_main_launches packedBoot (fun _ _ => 0) resetRegs coldMachine).1 packed_fits
  exact ⟨el2, s2, r₀, hrun, hstart⟩

/-- What holds at every guest entry: the guest is one of the two, it reaches the window and nothing else, and
EL2 can read what it has mapped. -/
structure GuestWorld (K : BootImage) (other : U64 → BitVec 9 → U64) (s2 : S2Tables) (r : Running) : Prop where
  vcpu : r.vcpu ∈ guests
  window : ∀ x tr, s2_walk K.s2 other s2 (r.st.m.sys .VTTBR_EL2) x = some tr ↔
    (0x40000000 ≤ x.toNat ∧ x.toNat < 0x80000000) ∧
      tr = { pa := x, read := true, write := true, exec := true }
  readable : ∀ a, r.st.m.el2Readable a = true ↔ K.El2Mapped a.toNat

theorem main_established (h : Main.el2_main K other r m = .running el2 regs s2 r₀)
    (hrun : Relation.ReflTransGen Stepped r₀ r') : Established r₀ r' ∧ r'.vcpu ∈ guests := by
  obtain ⟨-, -, s, hs, rfl⟩ := main_running h
  have hkept := run_established (firstEntry_reachable hs) hrun
  have hi := reachable_inv hkept.reachable
  exact ⟨hkept, firstEntry_members hs (hkept.members ▸ hi.sched.current_mem hi.current)⟩

/-- EL2 reads what it has mapped. -/
theorem main_readable (h : Main.el2_main K other r m = .running el2 regs s2 r₀)
    (hrun : Relation.ReflTransGen Stepped r₀ r') (a : U64) :
    r'.st.m.el2Readable a = true ↔ K.El2Mapped a.toNat := by
  obtain ⟨hkept, -⟩ := main_established h hrun
  obtain ⟨hmap, -, s, hs, rfl⟩ := main_running h
  have htop : K.stack_top ≤ 2 ^ 39 := K.image_below.trans (by decide)
  rw [hkept.el2Readable, firstEntry_el2Readable hs, ← Sections.bootMap_isSome_iff,
    ← Sections.boot_walk htop hmap other r]
  rfl

/-- What `el2_main` has set up holds at every guest entry of every run, whatever the guests do. That they
leave EL2's own memory alone, which lies in their window, is part of what a run is. -/
theorem guest_world_kept (h : Main.el2_main K other r m = .running el2 regs s2 r₀)
    (hrun : Relation.ReflTransGen Stepped r₀ r') : GuestWorld K other s2 r' := by
  obtain ⟨hkept, hv⟩ := main_established h hrun
  refine ⟨hv, ?_, main_readable h hrun⟩
  obtain ⟨-, -, s, hs, rfl⟩ := main_running h
  have hroot : r'.st.m.sys .VTTBR_EL2 &&& oaMask = K.s2.s2_l1 := by
    rw [(reachable_inv hkept.reachable).vttbr, hkept.vttbr]
    exact firstEntry_vttbr hs hv
  exact main_walk (el2_boot_eq_some hs).1 other hroot

/-- The small image on the cold machine, and the entry of the second guest when the first one has waited. -/
theorem packed_second : ∃ el2 regs s2 r₀ r₁,
    Main.el2_main packedBoot (fun _ _ => 0) resetRegs coldMachine = .running el2 regs s2 r₀ ∧
      r₀.vcpu = 0 ∧ r₀.step (coldSlice 0x04000000) = some r₁ ∧ r₁.vcpu = 1 := by
  obtain ⟨el2, hmap⟩ := Option.isSome_iff_exists.mp
    ((Sections.boot_isSome_iff (z := packedBoot.toSections) (by decide) packedBoot.el2 S2Tables.cleared).mpr
      packed_fits)
  obtain ⟨s2, s, hs, hrun⟩ := main_runs (K := packedBoot) (fun _ _ => 0) resetRegs coldMachine hmap
  have hinv := reachable_inv (firstEntry_reachable hs)
  have hx : (coldSlice 0x04000000).Sync := ⟨_, _, rfl⟩
  have hwaits : (coldSlice 0x04000000).waits = true := by decide
  have hafter : (firstEntry s).st.sched.after 0 = 1 := by
    rw [firstEntry, world_switch_sched, el2_boot_sched hs]
    rfl
  obtain ⟨r₁, h₁⟩ := Option.isSome_iff_exists.mp ((step_isSome_iff hinv (coldSlice 0x04000000)).mpr
    (.wait (of_decide_eq_true ((trapEsr_waits _ hx).trans hwaits))))
  have hturn := step_turn hinv hx h₁
  have hnested : (firstEntry s).turn.nested = false := rfl
  have hcur : (firstEntry s).turn.cur = 0 := rfl
  have hv : r₁.turn.cur = 1 := by
    rw [hturn, RoundRobin.Turn.next, hnested, hcur, hwaits, hafter]
    rfl
  exact ⟨el2, _, s2, firstEntry s, r₁, hrun, rfl, h₁, hv⟩

theorem guest_world_kept_packed : ∃ el2 regs s2 r₀ r₁,
    Main.el2_main packedBoot (fun _ _ => 0) resetRegs coldMachine = .running el2 regs s2 r₀ ∧
      r₁.vcpu = 1 ∧ Relation.ReflTransGen Stepped r₀ r₁ ∧ GuestWorld packedBoot (fun _ _ => 0) s2 r₁ := by
  obtain ⟨el2, regs, s2, r₀, r₁, hrun, -, hstep, hv⟩ := packed_second
  have hpath : Relation.ReflTransGen Stepped r₀ r₁ := .single ⟨_, hstep⟩
  exact ⟨el2, regs, s2, r₀, r₁, hrun, hv, hpath, guest_world_kept hrun hpath⟩

end Main

end Schism
