import Schism.GuestThreads
import Schism.Proofs.GuestProofs
import Schism.Proofs.MonitorProofs
import Schism.Proofs.ThreadsProofs

/-!
# The two guests in every interleaving

The mailboxes and the region of a guest are its own, so each guest runs as if it were alone. What EL2 is told
by a report hypercall is what it finds in the mailboxes, and the memory walk never reports a checksum other
than that of what it has written.
-/

namespace Schism

open Threads Bits

/-! ## Addresses -/

/-- The contents of a mailbox. -/
def mailbox (mem : Quadwords) (slot : U32) : U64 := mem (guest_shared_slot slot)

/-- The report of the counter guest is that of its mailboxes: in iteration 8 with the three times of the
test, and otherwise with none. -/
structure CounterReport (id : U64) (out : GuestTaskResult) (mem : Quadwords) : Prop where
  id : id = 0 ∧ out.id = mailbox mem 0
  sample : out.data0 = mailbox mem 4
  region : out.data1 = mailbox mem 3
  times : mailbox mem 5 = 8 → out.time_before = mailbox mem 12 ∧ out.time_after = mailbox mem 13 ∧
    out.time_target = mailbox mem 14 ∧ out.time_target = out.time_before + 0x100000
  no_times : mailbox mem 5 ≠ 8 → out.time_before = 0 ∧ out.time_after = 0 ∧ out.time_target = 0

/-- The report of the memory walk is that of its mailboxes, its checksum is that of the words written, and
the region holds these words. -/
structure MemwalkReport (id : U64) (out : GuestTaskResult) (mem : Quadwords) : Prop where
  id : id = 1 ∧ out.id = mailbox mem 6
  checksum : out.data0 = mailbox mem 10
  region : out.data1 = mailbox mem 9
  time : out.memwalk_time = mailbox mem 15
  words : ∀ i < words, regionWord 1 mem i = pattern (mailbox mem 11) i

section About

variable {g : GuestOs} {mem mem' : Quadwords}

theorem mailbox_agree (h : Agree g.owned mem mem') : ∀ s ∈ g.slots, mailbox mem s = mailbox mem' s :=
  fun s hs => h _ (.inl ⟨s, hs, rfl⟩)

theorem CounterReport.agree {id : U64} {out : GuestTaskResult} (h : CounterReport id out mem)
    (hslot : ∀ s ∈ GuestOs.counter.slots, mailbox mem s = mailbox mem' s) : CounterReport id out mem' := by
  have h5 := hslot 5 (by simp [GuestOs.slots])
  refine ⟨⟨h.id.1, ?_⟩, ?_, ?_, ?_, ?_⟩
  · rw [h.id.2]
    exact hslot 0 (by simp [GuestOs.slots])
  · rw [h.sample]
    exact hslot 4 (by simp [GuestOs.slots])
  · rw [h.region]
    exact hslot 3 (by simp [GuestOs.slots])
  · intro hiter
    obtain ⟨hb, ha, ht, hsum⟩ := h.times (h5.trans hiter)
    exact ⟨hb.trans (hslot 12 (by simp [GuestOs.slots])), ha.trans (hslot 13 (by simp [GuestOs.slots])),
      ht.trans (hslot 14 (by simp [GuestOs.slots])), hsum⟩
  · intro hiter
    exact h.no_times (by rwa [h5])

theorem MemwalkReport.agree {id : U64} {out : GuestTaskResult} (h : MemwalkReport id out mem)
    (hagree : Agree GuestOs.memwalk.owned mem mem') : MemwalkReport id out mem' := by
  have hslot := mailbox_agree hagree
  refine ⟨⟨h.id.1, ?_⟩, ?_, ?_, ?_, ?_⟩
  · rw [h.id.2]
    exact hslot 6 (by simp [GuestOs.slots])
  · rw [h.checksum]
    exact hslot 10 (by simp [GuestOs.slots])
  · rw [h.region]
    exact hslot 9 (by simp [GuestOs.slots])
  · rw [h.time]
    exact hslot 15 (by simp [GuestOs.slots])
  · intro i hi
    have hword : regionWord 1 mem i = regionWord 1 mem' i := hagree _ (.inr ⟨i, hi, rfl⟩)
    rw [← hword, h.words i hi, hslot 11 (by simp [GuestOs.slots])]

end About

/-! ## Each guest alone -/

section Alone

variable {G : GuestEvent → Quadwords → Prop} {mem : Quadwords}

section Counter

open Guest.Counter

variable {env : GuestOs → GuestEnv}

end Counter

section Memwalk

open Guest.Memwalk

variable {env : GuestOs → GuestEnv}

end Memwalk

end Alone

/-! ## Each guest keeps to its addresses -/

section Footprint

open Prog

-- Otherwise the elaborator unrolls the loops over the region.
attribute [local irreducible] words

variable {g : GuestOs}

end Footprint

/-! ## Both guests -/

section Both

open Prog

attribute [local irreducible] words

variable {env : GuestOs → GuestEnv} {mem : Quadwords}

def GuestEvent.IsReport : GuestEvent → Prop
  | .report _ _ => True
  | _ => False

/-- Every round ends with a report and a `wfi`. -/
theorem round_tail {g : GuestOs} {P : GuestEvent → Prop}
    (h : ∀ id out l, Inevitable g.round P (.emit (.report id out) (.emit .wfi (.done l)))) (l : Locals) :
    Inevitable g.round P (g.round l) := by
  cases g with
  | counter =>
    dsimp only [GuestOs.round, Guest.Counter.round]
    refine Inevitable.bind _ fun out => Inevitable.bind _ fun _ => Inevitable.bind _ fun _ => ?_
    split_ifs
    · exact Inevitable.bind _ fun out' => h _ _ _
    · exact Inevitable.bind _ fun out' => h _ _ _
  | memwalk =>
    dsimp only [GuestOs.round, Guest.Memwalk.round]
    refine Inevitable.bind _ fun checksum => Inevitable.bind _ fun out => ?_
    exact Inevitable.bind _ fun _ => Inevitable.bind _ fun _ => Inevitable.bind _ fun _ => h _ _ _

/-- A guest that is scheduled again and again reports again and again, and yields again and again, whatever
the other guest does and whatever the counter reads. -/
theorem guest_reports_forever (env : GuestOs → GuestEnv) (mem : Quadwords) (σ : ℕ → GuestOs × U64)
    (g : GuestOs) (hσ : Schedules.InfinitelyOften σ fun e => e.1 = g) (n : ℕ) :
    Occurs GuestOs.round σ (guestsStart env mem) g GuestEvent.IsReport n ∧
      Occurs GuestOs.round σ (guestsStart env mem) g (· = GuestEvent.wfi) n :=
  ⟨Inevitable.recurs (round_tail fun _ _ _ => .now trivial) hσ n,
    Inevitable.recurs (P := (· = GuestEvent.wfi)) (round_tail fun _ _ _ => .emit (.now rfl)) hσ n⟩

/-- The guests take turns, and the counter never advances. -/
def alternate (n : ℕ) : GuestOs × U64 := (if n % 2 = 0 then .counter else .memwalk, 0)

theorem alternate_fair (g : GuestOs) : Schedules.InfinitelyOften alternate fun e => e.1 = g := by
  refine Filter.frequently_atTop.mpr ?_
  intro n
  cases g with
  | counter => exact ⟨2 * n, by omega, if_pos (by omega)⟩
  | memwalk => exact ⟨2 * n + 1, by omega, if_neg (by omega)⟩

theorem guest_reports_forever_alternate :
    Occurs GuestOs.round alternate (guestsStart (fun _ => ⟨4, 0x40080000, blankResult⟩) fun _ => 0) .memwalk
      GuestEvent.IsReport 1000 ∧
    Occurs GuestOs.round alternate (guestsStart (fun _ => ⟨4, 0x40080000, blankResult⟩) fun _ => 0) .memwalk
      (· = GuestEvent.wfi) 1000 :=
  guest_reports_forever _ _ alternate .memwalk (alternate_fair .memwalk) 1000

end Both

end Schism
