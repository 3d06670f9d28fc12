import Schism.Guests
import Schism.Schedules
import Schism.Threads

/-!
# The two guests as threads (`guests/counter_os.c`, `guests/memwalk_os.c`, `guests/guest_tasks.c`)

Both guests instruction by instruction as far as memory, the counter and the hypervisor see them: stores and
loads of shared memory, reads of `CNTVCT_EL0`, hypercalls and `wfi`. The locals of a guest, among them the
`result` that it reports, are not in shared memory, and the storage of `result` keeps its contents from one
round to the next. `guest_delay` does nothing.
-/

namespace Schism

open Threads

/-- What EL2 sees of a guest. -/
inductive GuestEvent where
  /-- `hvc #0x60`. -/
  | report (guest_id : U64) (out : GuestTaskResult)
  /-- `hvc #0x61`. -/
  | set_time (virtual_cnt : U64)
  | wfi

/-- A part of a guest; the inputs are reads of `CNTVCT_EL0`. -/
abbrev GuestProg := Prog U64 U64 U64 GuestEvent

/-- The locals at the head of a guest's loop: `iteration` or `seed`, and `result`. -/
structure Locals where
  counter : U64
  result : GuestTaskResult

namespace Guest

/-! ## `guest_stubs.h` -/

/-- `*a = v`. -/
def write (a v : U64) : GuestProg Unit := .store a v (pure ())

/-- `*a`. -/
def read (a : U64) : GuestProg U64 := .load a pure

def guest_log_value (slot : U32) (value : U64) : GuestProg Unit := write (guest_shared_slot slot) value

def guest_read_counter : GuestProg U64 := .input pure

def guest_yield : GuestProg Unit := .emit .wfi (pure ())

def guest_set_virtual_time (virtual_cnt : U64) : GuestProg Unit := .emit (.set_time virtual_cnt) (pure ())

/-! ## `guest_tasks.c` -/

def guest_task_counter (guest_id : U64) (out : GuestTaskResult) : GuestProg GuestTaskResult := do
  let sample_counter ← guest_read_counter
  pure (copy_desc "counter task" { out with
    id := guest_id
    data0 := sample_counter
    data1 := guest_private_region guest_id
    time_before := 0
    time_after := 0
    time_target := 0
    memwalk_time := 0 })

def guest_task_memwalk (guest_id : U64) (out : GuestTaskResult) : GuestProg GuestTaskResult := do
  let region := guest_private_region guest_id
  let checksum ← (List.range words).foldlM (fun checksum i => do
    let word ← read (elementAddr region i)
    let value := word ^^^ (guest_id <<< 32)
    pure (checksum ^^^ value)) 0
  let counter ← guest_read_counter
  pure (copy_desc "memwalk task" { out with
    id := guest_id
    data0 := checksum
    data1 := region
    time_before := 0
    time_after := 0
    time_target := 0
    memwalk_time := counter })

def guest_task_report (guest_id : U64) (out : GuestTaskResult) : GuestProg Unit :=
  .emit (.report guest_id out) (pure ())

/-! ## `counter_os.c` -/

namespace Counter

def COUNTER_SLOT_ID : U32 := 0
def COUNTER_SLOT_EL : U32 := 1
def COUNTER_SLOT_SP : U32 := 2
def COUNTER_SLOT_REGION : U32 := 3
def COUNTER_SLOT_COUNTER : U32 := 4
def COUNTER_SLOT_ITER : U32 := 5
def COUNTER_SLOT_TIME_BEFORE : U32 := 12
def COUNTER_SLOT_TIME_AFTER : U32 := 13
def COUNTER_SLOT_TIME_TARGET : U32 := 14

def run_isolation_tests (guest_id currentEl sp : U64) : GuestProg Unit := do
  guest_log_value COUNTER_SLOT_ID guest_id
  guest_log_value COUNTER_SLOT_EL currentEl
  guest_log_value COUNTER_SLOT_SP sp
  guest_log_value COUNTER_SLOT_REGION (guest_private_region guest_id)
  write (elementAddr (guest_private_region guest_id) 0) (0xc0de0000 ||| guest_id)

/-- `guest_counter_os` up to its loop. -/
def guest_counter_os (guest_id currentEl sp : U64) (result : GuestTaskResult) : GuestProg Locals := do
  run_isolation_tests guest_id currentEl sp
  pure { counter := 0, result := result }

/-- The test of the virtual time, in iteration 8. -/
def time_test (result : GuestTaskResult) : GuestProg GuestTaskResult := do
  let before ← guest_read_counter
  let target := before + 0x100000
  guest_log_value COUNTER_SLOT_TIME_BEFORE before
  guest_log_value COUNTER_SLOT_TIME_TARGET target
  guest_set_virtual_time target
  let after ← guest_read_counter
  guest_log_value COUNTER_SLOT_TIME_AFTER after
  pure { result with time_before := before, time_target := target, time_after := after }

/-- One round of its loop. -/
def round (guest_id : U64) (l : Locals) : GuestProg Locals := do
  let iteration := l.counter
  let result ← guest_task_counter guest_id l.result
  guest_log_value COUNTER_SLOT_COUNTER result.data0
  guest_log_value COUNTER_SLOT_ITER iteration
  let result ← if iteration = 8 then time_test result else pure result
  guest_task_report guest_id result
  guest_yield
  pure { counter := iteration + 1, result := result }

end Counter

/-! ## `memwalk_os.c` -/

namespace Memwalk

def run_isolation_tests (guest_id currentEl sp : U64) : GuestProg Unit := do
  guest_log_value MEMWALK_SLOT_ID guest_id
  guest_log_value MEMWALK_SLOT_EL currentEl
  guest_log_value MEMWALK_SLOT_SP sp
  guest_log_value MEMWALK_SLOT_REGION (guest_private_region guest_id)
  write (elementAddr (guest_private_region guest_id) 0) (0xbeef0000 ||| guest_id)

/-- `guest_memwalk_os` up to its loop. -/
def guest_memwalk_os (guest_id currentEl sp : U64) (result : GuestTaskResult) : GuestProg Locals := do
  run_isolation_tests guest_id currentEl sp
  pure { counter := 0xfeed000000000000, result := result }

/-- The loop that fills the region. -/
def fill (guest_id seed : U64) : GuestProg U64 :=
  (List.range words).foldlM (fun checksum i => do
    let value := seed ^^^ (BitVec.ofNat 64 i <<< 8)
    write (elementAddr (guest_private_region guest_id) i) value
    pure (checksum ^^^ value)) 0

/-- One round of its loop. -/
def round (guest_id : U64) (l : Locals) : GuestProg Locals := do
  let seed := l.counter
  let checksum ← fill guest_id seed
  let result ← guest_task_memwalk guest_id l.result
  guest_log_value MEMWALK_SLOT_CHECKSUM checksum
  guest_log_value MEMWALK_SLOT_SEED seed
  guest_log_value MEMWALK_SLOT_TIME result.memwalk_time
  guest_task_report guest_id result
  guest_yield
  pure { counter := seed + 0x111111111, result := result }

end Memwalk

end Guest

/-! ## Both together -/

inductive GuestOs where
  | counter
  | memwalk
deriving DecidableEq

/-- The argument that `el2_main` gives each guest. -/
def GuestOs.id : GuestOs → U64
  | .counter => 0
  | .memwalk => 1

def GuestOs.round : GuestOs → Locals → GuestProg Locals
  | .counter => Guest.Counter.round 0
  | .memwalk => Guest.Memwalk.round 1

/-- The mailboxes that the guest logs to. -/
def GuestOs.slots : GuestOs → List U32
  | .counter => [0, 1, 2, 3, 4, 5, 12, 13, 14]
  | .memwalk => [6, 7, 8, 9, 10, 11, 15]

/-- The addresses of a guest: its mailboxes and its region. -/
def GuestOs.owned (g : GuestOs) : Set U64 :=
  { a | (∃ slot ∈ g.slots, a = guest_shared_slot slot) ∨
    ∃ i < words, a = elementAddr (guest_private_region g.id) i }

/-- What the stubs `guest_read_current_el` and `guest_read_sp` return, and the first contents of
`result`. -/
structure GuestEnv where
  currentEl : U64
  sp : U64
  result : GuestTaskResult

/-- Both guests at their entry points. -/
def guestsStart (env : GuestOs → GuestEnv) (mem : Quadwords) :
    Config GuestOs U64 U64 U64 GuestEvent Locals where
  prog
    | .counter =>
      Guest.Counter.guest_counter_os 0 (env .counter).currentEl (env .counter).sp (env .counter).result
    | .memwalk =>
      Guest.Memwalk.guest_memwalk_os 1 (env .memwalk).currentEl (env .memwalk).sp (env .memwalk).result
  mem := mem
  log := []

end Schism
