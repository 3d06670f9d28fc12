import Schism.Boot
import Schism.El2Mmu

/-!
# The whole of `el2_main` (`core/main.c`)

From `bss_clear` to the first guest entry, with EL2's own translation and the messages on the console. A
builder that runs out of tables hangs without a message. Until `el2_mmu_enable` EL2 reads any address,
afterwards those that its translation maps.
-/

namespace Schism

/-- The image that the linker has made: its sections and tables, and the functions and the vector table that
`el2_main` refers to. -/
structure BootImage extends LinkLayout where
  el2 : El2Layout
  el2_arrays : el2.el2_l1 = el2_l1 ∧ el2.l2_pool = l2_pool ∧ el2.l3_pool = l3_pool
  guest_counter_os : U64
  guest_memwalk_os : U64
  guest_el1_vectors : U64

/-- How far `el2_main` gets. -/
inductive MainResult where
  | hung (s : State)
  | returned (s : State)
  | running (el2 : El2Tables) (regs : El2Regs) (s2 : S2Tables) (r : Running)

/-- Go on with the tables that a builder has made in the state `s`; when the pools are exhausted it spins. -/
def MainResult.build {α : Type} (s : State) (tables : Option α) (next : α → MainResult) : MainResult :=
  match tables with
  | none => .hung s
  | some t => next t

namespace Main

/-- `el2_main` on the machine `m`, with `r` in the registers of EL2's translation; memory outside EL2's
tables holds `other`. -/
def el2_main (K : BootImage) (other : U64 → BitVec 9 → U64) (r : El2Regs) (m : Machine) : MainResult :=
  let s := bss_clear m K.guest_el1_vectors
  let s := s.print [.puts "EL2: Hello from EL2!\n"]
  .build s (El2.el2_main_map K.el2 K.toSections S2Tables.cleared) fun el2 =>
    let r := el2_mmu_enable K.el2 r
    let s := s.onMachine fun m => { m with el2Readable := fun a => (el2_walk K.el2 other el2 r a).isSome }
    let s := s.print [.puts "EL2: Stage-1 MMU enabled.\n"]
    .build s (S2.s2_build_tables_identity K.s2 0x40000000 0x40000000 0x40000000 1 S2_VM_GUARD_BYTES 1 1 1
      S2Tables.cleared) fun s2 =>
      let s := s.print [.puts "EL2: Stage-2 tables built.\n"]
      let s := s.onMachine (s2_program_regs_and_enable K.s2)
      let s := s.print [.puts "EL2: Stage-2 MMU enabled.\n"]
      let s := boot_vcpus K.guest_counter_os K.guest_memwalk_os s
      let s := s.print [.puts "EL2: Launching initial VCPU...\n"]
      match vcpu_run (some 0) s with
      | none => .returned s
      | some run => .running el2 r s2 run

end Main

end Schism
