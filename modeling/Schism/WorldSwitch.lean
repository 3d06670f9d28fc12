import Schism.Sched
import Schism.Switch

/-!
# Saving and restoring a vCPU (`core/vcpu.c`, lines 111-394)

`world_switch` runs up to the `eret` of `vcpu_switch_asm`; what happens when the guest traps and the
call returns is part of the run (`Schism.Run`). The build of the Makefile does not define
`__ARM_FEATURE_PAUTH`, so the pointer-authentication branches are the `#else` ones.
-/

namespace Schism

/-! ## SIMD state -/

/-- The register pairs of the `stp`/`ldp` instructions of `save_fp` and `restore_fp`, with their byte
offsets into `vregs`. -/
def fpPairs : List (Fin 32 × Fin 32 × ℕ) :=
  [(0, 1, 0), (2, 3, 32), (4, 5, 64), (6, 7, 96), (8, 9, 128), (10, 11, 160), (12, 13, 192),
    (14, 15, 224), (16, 17, 256), (18, 19, 288), (20, 21, 320), (22, 23, 352), (24, 25, 384),
    (26, 27, 416), (28, 29, 448), (30, 31, 480)]

/-- The element of `vregs` at a byte offset. -/
def vregAt (off : ℕ) : Fin 32 := Fin.ofNat 32 (off / 16)

/-- `stp qa, qb, [vregs, #off]`. -/
def stpQ (m : Machine) (vregs : Fin 32 → U64 × U64) (i : Fin 32 × Fin 32 × ℕ) :
    Fin 32 → U64 × U64 :=
  Function.update (Function.update vregs (vregAt i.2.2) (m.q i.1)) (vregAt (i.2.2 + 16)) (m.q i.2.1)

/-- `ldp qa, qb, [vregs, #off]`. -/
def ldpQ (vregs : Fin 32 → U64 × U64) (q : Fin 32 → U64 × U64) (i : Fin 32 × Fin 32 × ℕ) :
    Fin 32 → U64 × U64 :=
  Function.update (Function.update q i.1 (vregs (vregAt i.2.2))) i.2.1 (vregs (vregAt (i.2.2 + 16)))

def save_fp (p : VcpuPtr) (s : State) : State :=
  s.onArch p fun a => { a with fp := {
    vregs := fpPairs.foldl (stpQ s.m) a.fp.vregs
    fpcr := (s.m.mrs .FPCR).setWidth 32
    fpsr := (s.m.mrs .FPSR).setWidth 32
    used := 1 } }

def restore_fp (p : VcpuPtr) (s : State) : State :=
  let fp := (s.vcpu p).arch.fp
  if fp.used = 0 then s else
  let s := s.onMachine fun m => { m with q := fpPairs.foldl (ldpQ fp.vregs) m.q }
  let s := s.msr .FPCR (fp.fpcr.setWidth 64)
  s.msr .FPSR (fp.fpsr.setWidth 64)

/-! ## Extensions that are not saved -/

def save_sve (p : VcpuPtr) (s : State) : State := s.onArch p fun a => { a with sve_used := 0 }

def restore_sve (_p : VcpuPtr) (s : State) : State := s

def save_pauth (p : VcpuPtr) (s : State) : State := s.onArch p fun a => { a with pauth_used := 0 }

def restore_pauth (_p : VcpuPtr) (s : State) : State := s

/-! ## Interrupt controller state -/

def VGIC_LR_CAPACITY : ℕ := 16

def vgic_detect_lr_count (m : Machine) : ℕ :=
  let count := (m.mrs .ICH_VTR &&& 0xf).toNat + 1
  if count > VGIC_LR_CAPACITY then VGIC_LR_CAPACITY else count

/-- The number of list registers, cached by the first call. -/
def vgic_lr_count (s : State) : ℕ :=
  if s.vgic_lr_cached = 0 then
    let cached := vgic_detect_lr_count s.m
    if cached = 0 then 1 else cached
  else s.vgic_lr_cached

/-- Call `vgic_lr_count`, which fills its cache. -/
def cacheLrCount (s : State) : State := { s with vgic_lr_cached := vgic_lr_count s }

def save_vgic (p : VcpuPtr) (s : State) : State :=
  let lr_count := vgic_lr_count s
  let s := cacheLrCount s
  s.onArch p fun a => { a with vgic := {
    -- `SAVE_VGIC_LR_IF(n, lr_count)` for every `n`
    lrs := fun n => if lr_count > n.val then s.m.mrs (.ICH_LR n) else a.vgic.lrs n
    vmcr := (s.m.mrs .ICH_VMCR).setWidth 32
    apr := (s.m.mrs .ICH_AP0R0).setWidth 32 } }

/-- `RESTORE_VGIC_LR_IF(n, lr_count)` for every `n`. -/
def Machine.msrLrs (m : Machine) (lr_count : ℕ) (lrs : Fin 16 → U64) : Machine :=
  { m with sys := fun
      | .ICH_LR n => if lr_count > n.val then lrs n else m.sys (.ICH_LR n)
      | r => m.sys r }

def restore_vgic (p : VcpuPtr) (s : State) : State :=
  let lr_count := vgic_lr_count s
  let s := cacheLrCount s
  let vgic := (s.vcpu p).arch.vgic
  let s := s.onMachine (·.msrLrs lr_count vgic.lrs)
  let s := s.msr .ICH_VMCR (vgic.vmcr.setWidth 64)
  s.msr .ICH_AP0R0 (vgic.apr.setWidth 64)

/-! ## The switch -/

/-- The `if (from)` block of `world_switch`. -/
def switch_out (p : VcpuPtr) (s : State) : State :=
  let s := s.elapse
  let vct := s.m.cntvct
  let s := s.onArch p fun a => { a with cntvct_el0 := vct }
  save_vgic p (save_pauth p (save_sve p (save_fp p s)))

/-- Program the virtual counter offset of the target. -/
def program_cntvoff (target : VcpuPtr) (s : State) : State :=
  let s := s.elapse
  let phys_cnt := s.m.cntpct
  let offset := (s.vcpu target).arch.cntvct_el0 - phys_cnt
  let s := s.onArch target fun a => { a with cntvoff_el2 := offset }
  s.msr .CNTVOFF_EL2 offset

/-- The part of `world_switch` that prepares the target and enters it. -/
def switch_in (target : VcpuPtr) (s : State) : State :=
  let s := s.msr .VTTBR_EL2 (s.vcpu target).arch.vttbr_el2
  let s := program_cntvoff target s
  let s := restore_fp target (restore_sve target (restore_pauth target (restore_vgic target s)))
  let s := s.msr .VBAR_EL1 s.guest_el1_vectors
  let s := { s with current_trapframe := some target }
  let s := s.print [.puts "Switching to VCPU ", .hex64 ((s.vcpu target).vcpu_id.signExtend 64),
    .puts "\n"]
  s.onMachine (vcpu_switch_asm · (s.vcpu target).arch.tf)

/-- `world_switch(src, target)` up to the guest's first instruction. -/
def world_switch (src : Option VcpuPtr) (target : VcpuPtr) (s : State) : State :=
  let s := s.onMachine fun m => { m with irqMasked := true }
  let s := match src with
    | none => s
    | some p => switch_out p s
  switch_in target s

/-- What `world_switch` does after the guest trapped and the handler returned. -/
def world_switch_return (s : State) : State := s.onMachine fun m => { m with irqMasked := false }

end Schism
