import Schism.GuestMonitor
import Schism.Proofs.El2BootProofs
import Schism.Proofs.IsolationProofs
import Schism.Proofs.TaskReportProofs

/-!
# The mailboxes as EL2 sees them

`guest_shared_dump` loads the mailboxes through EL2's own translation, which maps the sections of the
image and the UART and nothing else. The guests reach the mailboxes through the identity window of
stage 2. So EL2 sees them only if the image is large enough to lie over them
(`mailboxes_visible_iff`).
-/

namespace Schism

open PageTables S2

/-! ## The image over the mailboxes -/

namespace Sections

variable {z : Sections}

/-- One section of the image lies over all mailboxes. -/
def MailboxesInSection (z : Sections) : Prop :=
  0x41010000 ≤ ALIGN z.text_end ∨ (z.rodata_start ≤ 0x41000000 ∧ 0x41010000 ≤ ALIGN z.rodata_end) ∨
    (z.data_start ≤ 0x41000000 ∧ 0x41010000 ≤ ALIGN z.data_end) ∨
    (z.bss_start ≤ 0x41000000 ∧ 0x41010000 ≤ ALIGN z.bss_end)

instance : Decidable z.MailboxesInSection := inferInstanceAs (Decidable (_ ∨ _))

/-- If all mailboxes are mapped, an unmapped page behind the first lies behind the last. -/
theorem mailboxes_end_le {hi : ℕ} (hall : ∀ slot < 16, z.El2Mapped (0x41000000 + slot * 0x1000))
    (hmod : hi % 0x1000 = 0) (hbehind : 0x41000000 < hi) (hnot : ¬ z.El2Mapped hi) : 0x41010000 ≤ hi := by
  by_contra hlt
  refine hnot ?_
  have hslot : hi = 0x41000000 + (hi - 0x41000000) / 0x1000 * 0x1000 := by omega
  rw [hslot]
  exact hall _ (by omega)

/-- The mailboxes fill sixteen pages and no guard page lies among them. -/
theorem mailboxes_mapped_iff :
    (∀ slot < 16, z.El2Mapped (0x41000000 + slot * 0x1000)) ↔ z.MailboxesInSection := by
  constructor
  · intro hall
    obtain ⟨ht, hr, hd, hb, hs⟩ := z.not_mapped_behind
    have ho := z.order
    rcases hall 0 (by decide) with hu | h | h | h | h | h
    · omega
    · exact .inl (mailboxes_end_le hall (ALIGN_mod _) h.2 ht)
    · exact .inr (.inl ⟨h.1, mailboxes_end_le hall (ALIGN_mod _) h.2 hr⟩)
    · exact .inr (.inr (.inl ⟨h.1, mailboxes_end_le hall (ALIGN_mod _) h.2 hd⟩))
    · exact .inr (.inr (.inr ⟨h.1, mailboxes_end_le hall (ALIGN_mod _) h.2 hb⟩))
    · -- the stack has eight pages only
      have hend := mailboxes_end_le hall z.stack_top_mod h.2 hs
      omega
  · intro hin slot hslot
    have ho := z.order
    rcases hin with h | h | h | h
    · exact .inr (.inl (by omega))
    · exact .inr (.inr (.inl (by omega)))
    · exact .inr (.inr (.inr (.inl (by omega))))
    · exact .inr (.inr (.inr (.inr (.inl (by omega)))))

end Sections

/-! ## The dump -/

theorem guest_shared_slot_toNat {slot : U32} (hslot : slot < GUEST_SHARED_SLOT_COUNT) :
    (guest_shared_slot slot).toNat = 0x41000000 + slot.toNat * 0x1000 := by
  have hlt : slot.toNat < 16 := hslot
  have hbase : GUEST_SHARED_BASE.toNat = 0x41000000 := rfl
  have hstride : GUEST_SHARED_STRIDE.toNat = 0x1000 := rfl
  rw [guest_shared_slot, BitVec.toNat_add, BitVec.toNat_mul, BitVec.toNat_setWidth, hbase, hstride]
  omega

/-- A loop whose rounds succeed or fail whatever the others have gathered. -/
theorem foldlM_isSome_iff {α β : Type} {f : β → α → Option β} {P : α → Prop}
    (hf : ∀ b a, (f b a).isSome ↔ P a) (xs : List α) (b : β) :
    (xs.foldlM f b).isSome ↔ ∀ a ∈ xs, P a := by
  induction xs generalizing b with
  | nil => simp
  | cons x xs ih =>
    rw [List.foldlM_cons, List.forall_mem_cons, ← hf b x]
    exact bind_isSome_iff fun b' => ih b'

/-- The mailboxes of the loop by number. -/
theorem forall_slot_iff {P : U32 → Prop} (Q : ℕ → Prop)
    (h : ∀ slot < GUEST_SHARED_SLOT_COUNT, P slot ↔ Q slot.toNat) :
    (∀ slot < GUEST_SHARED_SLOT_COUNT, P slot) ↔ ∀ n < 16, Q n := by
  constructor
  · intro hall n hn
    have hnat : (BitVec.ofNat 32 n).toNat = n := by
      rw [BitVec.toNat_ofNat]
      omega
    have hlt : BitVec.ofNat 32 n < GUEST_SHARED_SLOT_COUNT := by
      rw [BitVec.lt_def, hnat]
      exact hn
    have hslot := (h _ hlt).mp (hall _ hlt)
    rwa [hnat] at hslot
  · intro hall slot hslot
    exact (h slot hslot).mpr (hall slot.toNat hslot)

theorem guest_shared_dump_slot_isSome (m : Machine) (slot : U32) :
    (guest_shared_dump_slot m slot).isSome ↔
      ∀ i < 8, m.el2Readable (guest_shared_slot slot + BitVec.ofNat 64 i) = true := by
  rw [← m.load64_isSome_iff, guest_shared_dump_slot]
  cases m.load64 (guest_shared_slot slot) <;> rfl

/-- The dump returns when every load of its loop does. -/
theorem guest_shared_dump_isSome (m : Machine) : (guest_shared_dump m).isSome ↔
    ∀ slot < GUEST_SHARED_SLOT_COUNT, ∀ i < 8,
      m.el2Readable (guest_shared_slot slot + BitVec.ofNat 64 i) = true := by
  have hround : ∀ (out : List Out) (slot : ℕ), (guest_shared_dump_slot m (BitVec.ofNat 32 slot) >>=
      fun line => pure (out ++ line)).isSome ↔
        (guest_shared_dump_slot m (BitVec.ofNat 32 slot)).isSome := by
    intro out slot
    cases guest_shared_dump_slot m (BitVec.ofNat 32 slot) <;> rfl
  have hslot : ∀ slot < GUEST_SHARED_SLOT_COUNT,
      (∀ i < 8, m.el2Readable (guest_shared_slot slot + BitVec.ofNat 64 i) = true) ↔
        (guest_shared_dump_slot m (BitVec.ofNat 32 slot.toNat)).isSome := by
    intro slot _
    rw [BitVec.ofNat_toNat, BitVec.setWidth_eq, guest_shared_dump_slot_isSome]
  rw [guest_shared_dump, foldlM_isSome_iff hround,
    forall_slot_iff (fun n => (guest_shared_dump_slot m (BitVec.ofNat 32 n)).isSome) hslot]
  exact forall_congr' fun n => imp_congr_left List.mem_range

/-! ## Visibility -/

/-- EL2 maps the mailbox, onto the memory that both guests reach at its address. -/
def MailboxVisible (E : El2Layout) (L : S2Layout) (other : U64 → BitVec 9 → U64) (t : El2Tables)
    (r : El2Regs) (ts : S2Tables) (s : State) (slot : U32) : Prop :=
  ∃ tr, el2_walk E other t (el2_mmu_enable E r) (guest_shared_slot slot) = some tr ∧
    ∀ p ∈ guests, ∃ str, s2_walk L other ts (s.vcpu p).arch.vttbr_el2 (guest_shared_slot slot) = some str ∧
      str.pa = tr.pa

section Visible

variable {E : El2Layout} {L : S2Layout} (other : U64 → BitVec 9 → U64) (r : El2Regs) {t₀ t : El2Tables}
  {z : Sections} {entry₀ entry₁ vectors : U64} {m : Machine} {ts : S2Tables} {s : State}
  (htop : z.stack_top < 2 ^ 64) (hel2 : El2.el2_main_map E z t₀ = some t)
include htop hel2

/-- EL2 reads a byte exactly when it maps it. -/
theorem el2_walk_isSome_iff (x : U64) :
    (el2_walk E other t (el2_mmu_enable E r) x).isSome ↔ z.El2Mapped x.toNat := by
  rw [Sections.boot_walk (z.stack_top_of_built htop hel2) hel2, Sections.bootMap_isSome_iff]

theorem guest_shared_dump_isSome_iff {m' : Machine}
    (hread : ∀ a, m'.el2Readable a = (el2_walk E other t (el2_mmu_enable E r) a).isSome) :
    (guest_shared_dump m').isSome ↔ z.MailboxesInSection := by
  have hquad : ∀ slot < GUEST_SHARED_SLOT_COUNT,
      (∀ i < 8, m'.el2Readable (guest_shared_slot slot + BitVec.ofNat 64 i) = true) ↔
        z.El2Mapped (0x41000000 + slot.toNat * 0x1000) := by
    intro slot hslot
    have haddr : ∀ i < 8, (guest_shared_slot slot + BitVec.ofNat 64 i).toNat =
        0x41000000 + slot.toNat * 0x1000 + i := by
      intro i hi
      have hlt : slot.toNat < 16 := hslot
      rw [BitVec.toNat_add, guest_shared_slot_toNat hslot, BitVec.toNat_ofNat]
      omega
    have hbyte : ∀ i < 8, m'.el2Readable (guest_shared_slot slot + BitVec.ofNat 64 i) = true ↔
        z.El2Mapped (0x41000000 + slot.toNat * 0x1000) := by
      intro i hi
      rw [hread, el2_walk_isSome_iff other r htop hel2, haddr i hi, z.mapped_page_iff (by omega) (by omega)]
    exact ⟨fun h => (hbyte 0 (by decide)).mp (h 0 (by decide)), fun h i hi => (hbyte i hi).mpr h⟩
  rw [guest_shared_dump_isSome, ← Sections.mailboxes_mapped_iff]
  exact forall_slot_iff _ hquad

/-- The translations of both regimes agree wherever EL2 has one. -/
theorem mailboxVisible_iff (hs2 : el2_main L entry₀ entry₁ vectors m = some (ts, s)) {slot : U32}
    (hslot : slot < GUEST_SHARED_SLOT_COUNT) : MailboxVisible E L other t r ts s slot ↔
      z.El2Mapped (0x41000000 + slot.toNat * 0x1000) := by
  have haddr := guest_shared_slot_toNat hslot
  rw [← haddr, ← el2_walk_isSome_iff other r htop hel2]
  constructor
  · rintro ⟨tr, htr, -⟩
    exact Option.isSome_of_eq_some htr
  · intro h
    obtain ⟨tr, htr⟩ := Option.isSome_iff_exists.mp h
    refine ⟨tr, htr, ?_⟩
    intro p hp
    obtain ⟨ht, hroot⟩ := el2_boot_eq_some hs2
    have hlt : slot.toNat < 16 := hslot
    rw [Sections.boot_walk (z.stack_top_of_built htop hel2) hel2] at htr
    refine ⟨⟨guest_shared_slot slot, true, true, true⟩, ?_, (z.bootMap_pa htr).symm⟩
    exact (main_walk ht other (hroot p hp) _ _).mpr ⟨by omega, rfl⟩

theorem all_visible_iff (hs2 : el2_main L entry₀ entry₁ vectors m = some (ts, s)) :
    (∀ slot < GUEST_SHARED_SLOT_COUNT, MailboxVisible E L other t r ts s slot) ↔
      z.MailboxesInSection := by
  rw [← Sections.mailboxes_mapped_iff]
  exact forall_slot_iff _ fun slot hslot => mailboxVisible_iff other r htop hel2 hs2 hslot

/-- EL2 sees every mailbox as the guests do exactly when one section of the image lies over all of them,
and the dump returns exactly then. -/
theorem mailboxes_visible_iff (hs2 : el2_main L entry₀ entry₁ vectors m = some (ts, s)) {m' : Machine}
    (hread : ∀ a, m'.el2Readable a = (el2_walk E other t (el2_mmu_enable E r) a).isSome) :
    ((∀ slot < GUEST_SHARED_SLOT_COUNT, MailboxVisible E L other t r ts s slot) ↔
      z.MailboxesInSection) ∧
    ((guest_shared_dump m').isSome ↔ z.MailboxesInSection) :=
  ⟨all_visible_iff other r htop hel2 hs2, guest_shared_dump_isSome_iff other r htop hel2 hread⟩

end Visible

/-- The unaligned image with 32 MB more of `.bss`, which then lies over the mailboxes. -/
def wideImage : Sections := { unalignedImage with bss := 0x2480010 }

/-- EL2's translation of an image decides what a machine reads. -/
def mappedMachine (t : El2Tables) : Machine :=
  { coldMachine with el2Readable := fun a => (el2_walk unalignedTables (fun _ _ => 0) t
      (el2_mmu_enable unalignedTables ⟨0, 0, 0, 0⟩) a).isSome }

theorem mailboxes_visible_wide : ∃ t ts s,
    wideImage.stack_top < 2 ^ 64 ∧
    El2.el2_main_map unalignedTables wideImage S2Tables.cleared = some t ∧
    el2_main packedLayout 0x40001000 0x40002000 0x40000800 coldMachine = some (ts, s) ∧
    (∀ slot < GUEST_SHARED_SLOT_COUNT, MailboxVisible unalignedTables packedLayout (fun _ _ => 0) t
      ⟨0, 0, 0, 0⟩ ts s slot) ∧
    (guest_shared_dump (mappedMachine t)).isSome := by
  have htop : wideImage.stack_top < 2 ^ 64 := by decide
  have hin : wideImage.MailboxesInSection := by decide
  obtain ⟨t, ht⟩ := Option.isSome_iff_exists.mp ((Sections.boot_isSome_iff (z := wideImage) (by decide)
    unalignedTables S2Tables.cleared).mpr (Sections.small_fits (by decide)))
  obtain ⟨ts, s, hs⟩ := el2_boot_returns slotWindow_main packedLayout 0x40001000 0x40002000 0x40000800
    coldMachine
  have hread : ∀ a, (mappedMachine t).el2Readable a = (el2_walk unalignedTables (fun _ _ => 0) t
      (el2_mmu_enable unalignedTables ⟨0, 0, 0, 0⟩) a).isSome := fun _ => rfl
  obtain ⟨hvisible, hdump⟩ := mailboxes_visible_iff (fun _ _ => 0) ⟨0, 0, 0, 0⟩ htop ht hs hread
  exact ⟨t, ts, s, htop, ht, hs, hvisible.mpr hin, hdump.mpr hin⟩

/-- The unaligned image ends below the first mailbox, and the dump stops EL2. -/
theorem mailboxes_hidden : ∃ t ts s,
    El2.el2_main_map unalignedTables unalignedImage S2Tables.cleared = some t ∧
    el2_main packedLayout 0x40001000 0x40002000 0x40000800 coldMachine = some (ts, s) ∧
    ¬ (∀ slot < GUEST_SHARED_SLOT_COUNT, MailboxVisible unalignedTables packedLayout (fun _ _ => 0) t
      ⟨0, 0, 0, 0⟩ ts s slot) ∧
    guest_shared_dump (mappedMachine t) = none := by
  have htop : unalignedImage.stack_top < 2 ^ 64 := by decide
  have hin : ¬ unalignedImage.MailboxesInSection := by decide
  obtain ⟨t, ht⟩ := unaligned_boots
  obtain ⟨ts, s, hs⟩ := el2_boot_returns slotWindow_main packedLayout 0x40001000 0x40002000 0x40000800
    coldMachine
  refine ⟨t, ts, s, ht, hs, ?_, ?_⟩
  · intro hvisible
    exact hin ((all_visible_iff _ _ htop ht hs).mp hvisible)
  · rw [← Option.not_isSome_iff_eq_none, guest_shared_dump_isSome_iff (fun _ _ => 0)
      ⟨0, 0, 0, 0⟩ htop ht fun _ => rfl]
    exact hin

end Schism
