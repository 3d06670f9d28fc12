import Schism.Machine

/-!
# The memory-walk guest (`guests/memwalk_os.c`, `guests/guest_tasks.c`)

With the helpers of `include/guest_stubs.h` and the addresses of `include/guest_layout.h`. The guest fills
its private region with a pattern that depends on a seed, has a task read the region back and reports both
checksums. Its accesses to memory are aligned quadwords, so memory is a map from the addresses of
quadwords. What happens to it while the guest is not writing is an argument, since the other guest has the
same stage-2 map.
-/

namespace Schism

/-! ## Layout -/

def GUEST_SHARED_BASE : U64 := 0x41000000
def GUEST_SHARED_STRIDE : U64 := 0x1000
def GUEST_SHARED_SLOT_COUNT : U32 := 16
def GUEST_WORK_BASE : U64 := 0x42000000
def GUEST_WORK_SIZE : U64 := 0x1000
def GUEST_WORK_STRIDE : U64 := 0x2000

/-- The quadwords of memory, by address. -/
abbrev Quadwords := U64 → U64

def guest_shared_slot (slot : U32) : U64 := GUEST_SHARED_BASE + slot.setWidth 64 * GUEST_SHARED_STRIDE

def guest_log_value (slot : U32) (value : U64) (mem : Quadwords) : Quadwords :=
  Function.update mem (guest_shared_slot slot) value

def guest_private_region (guest_id : U64) : U64 := GUEST_WORK_BASE + guest_id * GUEST_WORK_STRIDE

/-- `&region[i]`. -/
def elementAddr (region : U64) (i : ℕ) : U64 := region + BitVec.ofNat 64 (8 * i)

/-- `GUEST_WORK_SIZE / sizeof(u64)`. -/
def words : ℕ := GUEST_WORK_SIZE.toNat / 8

/-! ## Tasks -/

/-- `struct guest_task_result`. -/
structure GuestTaskResult where
  id : U64
  desc : Fin 32 → U8
  data0 : U64
  data1 : U64
  time_before : U64
  time_after : U64
  time_target : U64
  memwalk_time : U64

/-- The loop of `copy_desc` from index `i` on, with the rest of the message. -/
def copyDescLoop (i : ℕ) (desc : Fin 32 → U8) : List U8 → Fin 32 → U8
  | [] => Function.update desc (Fin.ofNat 32 i) 0
  | c :: msg =>
    if c ≠ 0 ∧ i + 1 < 32 then copyDescLoop (i + 1) (Function.update desc (Fin.ofNat 32 i) c) msg
    else Function.update desc (Fin.ofNat 32 i) 0

def copy_desc (msg : String) (out : GuestTaskResult) : GuestTaskResult :=
  { out with desc := copyDescLoop 0 out.desc (msg.toList.map fun c => BitVec.ofNat 8 c.toNat) }

/-- The walk over the region as it is in `mem`, at the virtual count `counter`. -/
def guest_task_memwalk (guest_id : U64) (mem : Quadwords) (counter : U64) (out : GuestTaskResult) :
    GuestTaskResult :=
  let region := guest_private_region guest_id
  let checksum := (List.range words).foldl (fun checksum i =>
    let value := mem (elementAddr region i) ^^^ (guest_id <<< 32)
    checksum ^^^ value) 0
  copy_desc "memwalk task" { out with
    id := guest_id
    data0 := checksum
    data1 := region
    time_before := 0
    time_after := 0
    time_target := 0
    memwalk_time := counter }

/-! ## The guest -/

def MEMWALK_SLOT_ID : U32 := 6
def MEMWALK_SLOT_EL : U32 := 7
def MEMWALK_SLOT_SP : U32 := 8
def MEMWALK_SLOT_REGION : U32 := 9
def MEMWALK_SLOT_CHECKSUM : U32 := 10
def MEMWALK_SLOT_SEED : U32 := 11
def MEMWALK_SLOT_TIME : U32 := 15

def run_isolation_tests (guest_id region currentEl sp : U64) (mem : Quadwords) : Quadwords :=
  let mem := guest_log_value MEMWALK_SLOT_ID guest_id mem
  let mem := guest_log_value MEMWALK_SLOT_EL currentEl mem
  let mem := guest_log_value MEMWALK_SLOT_SP sp mem
  let mem := guest_log_value MEMWALK_SLOT_REGION region mem
  Function.update mem (elementAddr region 0) (0xbeef0000 ||| guest_id)

/-- The loop that fills the region: memory and the checksum after it. -/
def memwalk_fill (guest_id seed : U64) (mem : Quadwords) : Quadwords × U64 :=
  let region := guest_private_region guest_id
  (List.range words).foldl (fun (mem, checksum) i =>
    let value := seed ^^^ (BitVec.ofNat 64 i <<< 8)
    (Function.update mem (elementAddr region i) value, checksum ^^^ value)) (mem, 0)

/-- One pass of the loop, as far as it was reported. -/
structure MemwalkPass where
  seed : U64
  checksum : U64
  result : GuestTaskResult

/-- The guest at the head of its loop. -/
structure MemwalkOs where
  mem : Quadwords
  seed : U64
  passes : List MemwalkPass

/-- What a pass does not determine: how memory changes before the task reads it and before the next pass,
the count at the task, and the contents of the uninitialised `result`. -/
structure MemwalkEnv where
  disturb : Quadwords → Quadwords
  yielded : Quadwords → Quadwords
  counter : U64
  result : GuestTaskResult

def memwalk_pass (guest_id : U64) (s : MemwalkOs) (env : MemwalkEnv) : MemwalkOs :=
  let (mem, checksum) := memwalk_fill guest_id s.seed s.mem
  let mem := env.disturb mem
  let result := guest_task_memwalk guest_id mem env.counter env.result
  let mem := guest_log_value MEMWALK_SLOT_CHECKSUM checksum mem
  let mem := guest_log_value MEMWALK_SLOT_SEED s.seed mem
  let mem := guest_log_value MEMWALK_SLOT_TIME result.memwalk_time mem
  { mem := env.yielded mem
    seed := s.seed + 0x111111111
    passes := s.passes ++ [⟨s.seed, checksum, result⟩] }

/-- `guest_memwalk_os` after the given passes. -/
def guest_memwalk_os (guest_id currentEl sp : U64) (mem : Quadwords) (envs : List MemwalkEnv) : MemwalkOs :=
  let region := guest_private_region guest_id
  envs.foldl (memwalk_pass guest_id)
    { mem := run_isolation_tests guest_id region currentEl sp mem
      seed := 0xfeed000000000000
      passes := [] }

end Schism
