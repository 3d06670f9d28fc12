import Schism.Proofs.TaskReportProofs

/-!
# What the report hypercall reads

`uart_puts` stops at the first zero byte and knows nothing of the size of `desc`. The hypercall stays
inside the report exactly when the guest put a zero byte into `desc` or right behind it.
-/

namespace Schism

open Bits

/-! ## Reading a string -/

namespace Machine

variable {m m' : Machine} {fuel n k : ℕ} {a x : U64}

theorem load8_eq_some {c : U8} (h : m.load8 a = some c) : m.el2Readable a = true ∧ m.mem a = c := by
  unfold load8 at h
  split at h
  · rename_i hread
    exact ⟨hread, Option.some.inj h⟩
  · cases h

/-- The loop reads nothing behind a zero byte. -/
theorem mem_putsReads (hnul : m.mem (a + BitVec.ofNat 64 k) = 0) (hx : x ∈ m.putsReads fuel a) :
    ∃ i ≤ k, x = a + BitVec.ofNat 64 i := by
  induction fuel generalizing a k with
  | zero => exact absurd hx List.not_mem_nil
  | succ fuel ih =>
    have hzero : a + BitVec.ofNat 64 0 = a := BitVec.add_zero a
    have hfirst : x = a → ∃ i ≤ k, x = a + BitVec.ofNat 64 i := by
      intro he
      exact ⟨0, Nat.zero_le k, by rw [hzero, he]⟩
    unfold putsReads at hx
    split at hx
    · exact hfirst (List.mem_singleton.mp hx)
    · rename_i c hc
      obtain ⟨-, hmem⟩ := load8_eq_some hc
      split at hx
      · exact hfirst (List.mem_singleton.mp hx)
      · rename_i hne
        rcases List.mem_cons.mp hx with he | hx
        · exact hfirst he
        · cases k with
          | zero =>
            rw [hzero, hmem] at hnul
            exact absurd hnul hne
          | succ k =>
            rw [← add_one_ofNat] at hnul
            obtain ⟨i, hi, rfl⟩ := ih hnul hx
            exact ⟨i + 1, Nat.succ_le_succ hi, add_one_ofNat a i⟩

/-- The loop prints nothing from a zero byte on. -/
theorem putsChars_prefix (hk : k ≤ n) (hnul : m.mem (a + BitVec.ofNat 64 k) = 0) :
    m.putsChars fuel a <+: (List.range n).map fun i => m.mem (a + BitVec.ofNat 64 i) := by
  induction fuel generalizing a k n with
  | zero => exact List.nil_prefix
  | succ fuel ih =>
    have hzero : a + BitVec.ofNat 64 0 = a := BitVec.add_zero a
    unfold putsChars
    split
    · exact List.nil_prefix
    · rename_i c hc
      obtain ⟨-, hmem⟩ := load8_eq_some hc
      split
      · exact List.nil_prefix
      · rename_i hne
        cases k with
        | zero =>
          rw [hzero, hmem] at hnul
          exact absurd hnul hne
        | succ k =>
          obtain ⟨n, rfl⟩ := Nat.exists_eq_succ_of_ne_zero (by omega : n ≠ 0)
          rw [← add_one_ofNat] at hnul
          have htail := ih (Nat.le_of_succ_le_succ hk) hnul
          simp only [add_one_ofNat] at htail
          rw [List.range_succ_eq_map, List.map_cons, List.map_map, hzero, hmem]
          exact List.cons_prefix_cons.mpr ⟨rfl, htail⟩

/-- The loop prints every byte before the first zero byte. -/
theorem le_length_putsChars (hn : n ≤ fuel)
    (h : ∀ i < n, m.el2Readable (a + BitVec.ofNat 64 i) = true ∧ m.mem (a + BitVec.ofNat 64 i) ≠ 0) :
    n ≤ (m.putsChars fuel a).length := by
  induction n generalizing a fuel with
  | zero => exact Nat.zero_le _
  | succ n ih =>
    obtain ⟨fuel, rfl⟩ := Nat.exists_eq_succ_of_ne_zero (by omega : fuel ≠ 0)
    have hzero : a + BitVec.ofNat 64 0 = a := BitVec.add_zero a
    obtain ⟨hread, hne⟩ := h 0 (Nat.succ_pos n)
    rw [hzero] at hread hne
    have htail := ih (a := a + 1) (Nat.le_of_succ_le_succ hn) (by
      intro i hi
      rw [add_one_ofNat]
      exact h (i + 1) (Nat.succ_lt_succ hi))
    simp only [putsChars, load8, hread, if_true, hne, if_false, List.length_cons]
    exact Nat.succ_le_succ htail

/-- A string that is read to its end has been printed. -/
theorem putsChars_eq {cs : List U8} (h : m.loadString fuel a = some cs) : m.putsChars fuel a = cs := by
  induction fuel generalizing a cs with
  | zero => cases h
  | succ fuel ih =>
    obtain ⟨c, hc, h⟩ := Option.bind_eq_some_iff.mp h
    simp only [putsChars, hc]
    split at h
    · rename_i hzero
      rw [if_pos hzero]
      exact Option.some.inj h
    · rename_i hne
      obtain ⟨cs', hcs', h⟩ := Option.bind_eq_some_iff.mp h
      rw [if_neg hne, ih hcs']
      exact Option.some.inj h

theorem mem_spanReads (hx : x ∈ m.spanReads n a) : ∃ i < n, x = a + BitVec.ofNat 64 i := by
  induction n generalizing a with
  | zero => exact absurd hx List.not_mem_nil
  | succ n ih =>
    rcases List.mem_cons.mp hx with rfl | hx
    · exact ⟨0, Nat.succ_pos n, (BitVec.add_zero x).symm⟩
    · split at hx
      · obtain ⟨i, hi, rfl⟩ := ih hx
        exact ⟨i + 1, Nat.succ_lt_succ hi, add_one_ofNat a i⟩
      · exact absurd hx List.not_mem_nil

end Machine

/-! ## The report -/

/-- `sizeof(struct guest_task_result)`. -/
def GUEST_TASK_RESULT_SIZE : ℕ := 88

/-- The bytes of the field `desc`. -/
def report_desc (m : Machine) (res : U64) : List U8 :=
  (List.range 32).map fun i => m.mem (res + 8 + BitVec.ofNat 64 i)

/-- The hypercall loads bytes of the report only, and prints characters of `desc` only. -/
structure ReportConfined (m : Machine) (res : U64) : Prop where
  reads : ∀ a ∈ task_report_reads m res, (a - res).toNat < GUEST_TASK_RESULT_SIZE
  prints : m.putsChars (2 ^ 64) (res + 8) <+: report_desc m res

/-- An address at a distance from `res`. -/
theorem add_ofNat_sub {res d : U64} {i : ℕ} (hi : d.toNat + i < 2 ^ 64) :
    (res + d + BitVec.ofNat 64 i - res).toNat = d.toNat + i := by
  rw [BitVec.add_assoc, add_sub_cancel_left, BitVec.toNat_add, BitVec.toNat_ofNat]
  omega

theorem reportConfined_iff {m : Machine} {res : U64}
    (hmapped : ∀ i < GUEST_TASK_RESULT_SIZE, m.el2Readable (res + BitVec.ofNat 64 i) = true) :
    ReportConfined m res ↔ ∃ k ≤ 32, m.mem (res + 8 + BitVec.ofNat 64 k) = 0 := by
  have hfield : (8 : U64).toNat = 8 ∧ (40 : U64).toNat = 40 := ⟨rfl, rfl⟩
  constructor
  · intro h
    by_contra hno
    have hall : ∀ i < 33, m.el2Readable (res + 8 + BitVec.ofNat 64 i) = true ∧
        m.mem (res + 8 + BitVec.ofNat 64 i) ≠ 0 := by
      intro i hi
      refine ⟨?_, fun hz => hno ⟨i, by omega, hz⟩⟩
      have hread := hmapped (8 + i) (by simp only [GUEST_TASK_RESULT_SIZE]; omega)
      rwa [BitVec.ofNat_add, ← BitVec.add_assoc] at hread
    have hlong := Machine.le_length_putsChars (by decide : 33 ≤ 2 ^ 64) hall
    have hshort := h.prints.length_le
    rw [report_desc, List.length_map, List.length_range] at hshort
    omega
  · rintro ⟨k, hk, hnul⟩
    refine ⟨?_, Machine.putsChars_prefix hk hnul⟩
    intro a ha
    simp only [GUEST_TASK_RESULT_SIZE]
    rcases List.mem_append.mp ha with ha | ha
    · obtain ⟨i, hi, rfl⟩ := Machine.mem_putsReads hnul ha
      rw [add_ofNat_sub (by omega)]
      omega
    · split at ha
      · obtain ⟨i, hi, rfl⟩ := Machine.mem_spanReads ha
        rw [add_ofNat_sub (by omega)]
        omega
      · exact absurd ha List.not_mem_nil

/-- What the model of the hypercall prints for the description. -/
theorem task_report_output_desc {m : Machine} {vcpu_id : U32} {res : U64} {out : List Out}
    (h : task_report_output m vcpu_id res = some out) :
    Out.putsBytes (m.putsChars (2 ^ 64) (res + 8)) ∈ out := by
  obtain ⟨desc, hdesc, h⟩ := Option.bind_eq_some_iff.mp h
  obtain ⟨data0, -, h⟩ := Option.bind_eq_some_iff.mp h
  obtain ⟨data1, -, h⟩ := Option.bind_eq_some_iff.mp h
  obtain ⟨time_before, -, h⟩ := Option.bind_eq_some_iff.mp h
  obtain ⟨time_after, -, h⟩ := Option.bind_eq_some_iff.mp h
  obtain ⟨time_target, -, h⟩ := Option.bind_eq_some_iff.mp h
  obtain ⟨memwalk_time, -, h⟩ := Option.bind_eq_some_iff.mp h
  rw [Machine.putsChars_eq hdesc]
  by_cases ht : time_before ≠ 0 ∨ time_after ≠ 0 ∨ time_target ≠ 0 ∨ memwalk_time ≠ 0
  · rw [if_pos ht] at h
    cases h
    simp
  · rw [if_neg ht] at h
    cases h
    simp

/-- For a report in memory that EL2 can read, whatever the guest stored there: the hypercall reads and
prints nothing outside the report and its `desc` exactly when one of the 32 bytes of `desc` or the byte
behind them is zero. When the hypercall returns, the characters are those that it printed. -/
theorem task_report_confined_iff (m : Machine) (res : U64)
    (hmapped : ∀ i < GUEST_TASK_RESULT_SIZE, m.el2Readable (res + BitVec.ofNat 64 i) = true) :
    (ReportConfined m res ↔ ∃ k ≤ 32, m.mem (res + 8 + BitVec.ofNat 64 k) = 0) ∧
      ∀ vcpu_id out, task_report_output m vcpu_id res = some out →
        Out.putsBytes (m.putsChars (2 ^ 64) (res + 8)) ∈ out :=
  ⟨reportConfined_iff hmapped, fun _ _ => task_report_output_desc⟩

/-- The report machine with a report at the start of `.bss` whose description ends after `n` bytes. -/
def describedMachine (n : ℕ) : Machine :=
  { reportMachine with
    mem := fun a => if a = 0x4000c008 + BitVec.ofNat 64 n then 0 else 0x41 }

theorem describedMachine_mapped (n : ℕ) : ∀ i < GUEST_TASK_RESULT_SIZE,
    (describedMachine n).el2Readable (0x4000c000 + BitVec.ofNat 64 i) = true := by
  intro i hi
  have haddr : (0x4000c000 + BitVec.ofNat 64 i : U64).toNat = 0x4000c000 + i := by
    simp only [GUEST_TASK_RESULT_SIZE] at hi
    rw [BitVec.toNat_add, BitVec.toNat_ofNat, show (0x4000c000 : U64).toNat = 0x4000c000 from rfl]
    omega
  have hbss : unalignedImage.bss_start = 0x4000c000 ∧ ALIGN unalignedImage.bss_end = 0x4048d000 := by
    decide
  have hmapped : (unalignedImage.bootMap (0x4000c000 + BitVec.ofNat 64 i)).isSome := by
    rw [Sections.bootMap_isSome_iff, haddr, Sections.El2Mapped, hbss.1, hbss.2]
    simp only [GUEST_TASK_RESULT_SIZE] at hi
    omega
  exact hmapped

/-- A description of five characters. -/
theorem task_report_confined_short : ReportConfined (describedMachine 5) 0x4000c000 :=
  (task_report_confined_iff (describedMachine 5) 0x4000c000 (describedMachine_mapped 5)).1.mpr
    ⟨5, by decide, by decide⟩

/-- A description that only ends 12 bytes behind the report. -/
theorem task_report_runs_on :
    (∀ i < GUEST_TASK_RESULT_SIZE,
      (describedMachine 92).el2Readable (0x4000c000 + BitVec.ofNat 64 i) = true) ∧
    ¬ ReportConfined (describedMachine 92) 0x4000c000 := by
  refine ⟨describedMachine_mapped 92, ?_⟩
  intro h
  obtain ⟨k, hk, hnul⟩ := (reportConfined_iff (describedMachine_mapped 92)).mp h
  revert hnul
  interval_cases k <;> decide

end Schism
