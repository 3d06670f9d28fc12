import Schism.Guests
import Schism.Trap

/-!
# The mailbox dump (`core/guest_monitor.c`)

It runs at EL2, so its loads go through EL2's own translation; `none` is a fault on one of them.
-/

namespace Schism

/-- One round of the loop. -/
def guest_shared_dump_slot (m : Machine) (slot : U32) : Option (List Out) := do
  let ptr := guest_shared_slot slot
  let value ← m.load64 ptr
  pure [.puts "  slot ", .hex64 (slot.setWidth 64), .puts " @ ", .hex64 ptr, .puts " = ", .hex64 value,
    .puts "\n"]

def guest_shared_dump (m : Machine) : Option (List Out) :=
  (List.range GUEST_SHARED_SLOT_COUNT.toNat).foldlM (fun out slot => do
    let line ← guest_shared_dump_slot m (BitVec.ofNat 32 slot)
    pure (out ++ line)) [.puts "EL2: guest shared slots snapshot\n"]

end Schism
