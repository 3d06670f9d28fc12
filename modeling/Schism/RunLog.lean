import Schism.Run

/-!
# What a run prints

The output of the handler and of `world_switch` as a function of what the guests leave behind, and a reader
that finds the guest entries in it.
-/

namespace Schism

/-- What `el2_exception_common` prints before it returns: `id` and `x1` are those of the vCPU that trapped. -/
def trap_output (m : Machine) (id : U32) (x1 esr : U64) : List Out :=
  if esr_ec esr = 0x01 then [.puts "EL2: WFI/WFE from guest detected, yielding...\n"]
  else if esr_ec esr = 0x16 ∧ esr &&& 0xffff = 0x60 ∧ x1 ≠ 0 then (task_report_output m id x1).getD []
  else []

/-- What `world_switch` prints. -/
def switch_output (id : U32) : List Out :=
  [.puts "Switching to VCPU ", .hex64 (id.signExtend 64), .puts "\n"]

/-- What the slices of a run make EL2 print. Of the machine `m` only EL2's translation is used, and `ids` are
the ids of the vCPUs. -/
def Running.log (m : Machine) (ids : VcpuPtr → U32) (r : Running) : List Slice → List Out
  | [] => []
  | sl :: sls =>
    match r.step sl with
    | none => []
    | some r' =>
      let esr := (r.exitMachine sl).mrs .ESR_EL2
      trap_output { m with mem := sl.mem } (ids r.vcpu) (sl.x 1) esr ++ switch_output (ids r'.vcpu) ++
        r'.log m ids sls

end Schism
