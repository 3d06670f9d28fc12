import Schism.Vectors
import Schism.Proofs.Arm64Proofs
import Schism.Proofs.BootProofs
import Schism.Proofs.SwitchProofs

/-!
# The vectors and the switch, instruction by instruction

From a slot of `el2_vectors` control reaches the handler in the state that `el2_vector_common` describes,
and from `vcpu_switch_asm` it reaches the guest in the state that the function of that name describes.
-/

namespace Schism

open Arm64

/-! ## Frames as quadwords -/

/-- A store into a frame is a store of a quadword. -/
theorem Trapframe.ldr_str (tf : Trapframe) {j k : ℕ} (hj : j < 44) (hk : k < 44) (v : U64) :
    (tf.str k v).ldr j = Function.update tf.ldr k v j := by
  rw [Function.update_apply]
  by_cases hreg : k < 31
  · rw [Trapframe.str, dif_pos hreg]
    by_cases hj' : j < 31
    · simp only [Trapframe.ldr, dif_pos hj', Function.update_apply, Fin.mk.injEq]
    · have hne : j ≠ k := by omega
      simp only [Trapframe.ldr, dif_neg hj', if_neg hne]
  · rw [Trapframe.str, dif_neg hreg]
    by_cases hj' : j < 31
    · have hne : j ≠ k := by omega
      rw [if_neg hne]
      interval_cases k <;> simp only [Trapframe.ldr, dif_pos hj']
    · interval_cases k <;> interval_cases j <;> rfl

/-- A frame at `p`. -/
abbrev FrameAt (mem : Quadwords) (p : U64) (tf : Trapframe) : Prop := Quads mem p 44 tf.ldr

theorem FrameAt.of_update {mem : Quadwords} {p : U64} {tf : Trapframe} {k : ℕ} (hk : k < 44) {v : U64}
    (h : Quads mem p 44 (Function.update tf.ldr k v)) : FrameAt mem p (tf.str k v) := by
  intro j hj
  rw [h j hj, tf.ldr_str hj hk]

/-- Pairs of registers saved one after the other make the frame that `stp` makes. -/
theorem savePairs_ldr (x v : Fin 31 → U64) (ps : List (Fin 31 × Fin 31 × ℕ)) (tf : Trapframe)
    (f : ℕ → U64) (hps : ∀ i ∈ ps, i.2.2 + 1 < 44 ∧ x i.1 = v i.1 ∧ x i.2.1 = v i.2.1)
    (hf : ∀ j < 44, f j = tf.ldr j) :
    ∀ j < 44, savePairs x ps f j =
      (ps.foldl (fun tf i => tf.stp i.2.2 (v i.1) (v i.2.1)) tf).ldr j := by
  induction ps generalizing tf f with
  | nil => exact hf
  | cons i ps ih =>
    obtain ⟨hi, h₁, h₂⟩ := hps i List.mem_cons_self
    refine ih _ _ (fun j hj => hps j (List.mem_cons_of_mem i hj)) ?_
    intro j hj
    have hi' : i.2.2 < 44 := by omega
    show Function.update (Function.update f i.2.2 (x i.1)) (i.2.2 + 1) (x i.2.1) j =
      ((tf.str i.2.2 (v i.1)).str (i.2.2 + 1) (v i.2.1)).ldr j
    rw [Trapframe.ldr_str _ hj hi, Function.update_apply, Function.update_apply, Function.update_apply,
      Trapframe.ldr_str _ hj hi', Function.update_apply, hf j hj, h₁, h₂]

/-! ## The save path -/

section Save

variable (addr : Sym → U64) (m : Machine) {c₀ c : Cpu SysReg} {p : U64} {tf : Trapframe}

/-- The save path, entered in `c₀`, has stored `tf` at `p` so far. -/
structure Saved (c₀ : Cpu SysReg) (p : U64) (tf : Trapframe) (c : Cpu SysReg) : Prop where
  frame : FrameAt c.mem p tf
  outside : ∀ a, ¬ InSlots p 44 a → c.mem a = c₀.mem a
  x : ∀ n, 3 ≤ n → c.x n = c₀.x n
  sp : c.sp = c₀.sp
  sys : c.sys = c₀.sys

theorem Saved.base (h : Saved c₀ p tf c) (hp : c₀.x 16 = p) : c.base (.x 16) = some p := by
  show some (c.x 16) = some p
  rw [h.x 16 (by decide), hp]

/-- A run of `stp` whose registers hold `v`. -/
theorem Saved.pairs (ha : Aligned p) (hp : c₀.x 16 = p) (h : Saved c₀ p tf c) (v : Fin 31 → U64)
    (ps : List (Fin 31 × Fin 31 × ℕ))
    (hps : ∀ i ∈ ps, i.2.2 + 1 < 44 ∧ c.x i.1 = v i.1 ∧ c.x i.2.1 = v i.2.1) :
    ∃ c', block (el2_platform addr m) (ps.map fun i => .stp i.1 i.2.1 (.x 16) (8 * i.2.2)) c = some c' ∧
      c'.x = c.x ∧ Saved c₀ p (ps.foldl (fun tf i => tf.stp i.2.2 (v i.1) (v i.2.1)) tf) c' := by
  obtain ⟨mem, hblock, hquads, hout⟩ := stp_pairs (P := el2_platform addr m) (by decide) ha (h.base hp) ps
    (fun i hi => (hps i hi).1) h.frame
  refine ⟨_, hblock, rfl, ?_, ?_, h.x, h.sp, h.sys⟩
  · intro j hj
    exact (hquads j hj).trans (savePairs_ldr c.x v ps tf _ hps (fun _ _ => rfl) j hj)
  · intro a hna
    exact (hout a hna).trans (h.outside a hna)

/-- A store of one register. -/
theorem Saved.str (ha : Aligned p) (hp : c₀.x 16 = p) (h : Saved c₀ p tf c) (t : Fin 31) {k : ℕ}
    (hk : k < 44) : ∃ c', (Instr.str t (.x 16) (8 * k)).exec (el2_platform addr m) c = some c' ∧
      c'.x = c.x ∧ Saved c₀ p (tf.str k (c.x t)) c' := by
  refine ⟨_, exec_str ha (h.base hp) t k, rfl, ?_, ?_, h.x, h.sp, h.sys⟩
  · exact FrameAt.of_update hk (h.frame.update (by decide) hk _)
  · intro a hna
    have hne : a ≠ p + BitVec.ofNat 64 (8 * k) := fun he => hna ⟨k, hk, he⟩
    exact (Function.update_of_ne hne _ _).trans (h.outside a hna)

/-- A scratch register changes. -/
theorem Saved.setX (h : Saved c₀ p tf c) {t : Fin 31} (ht : t < 3) (v : U64) :
    Saved c₀ p tf (c.setX t v) := by
  refine ⟨h.frame, h.outside, ?_, h.sp, h.sys⟩
  intro n hn
  have hne : n ≠ t := by omega
  exact (Function.update_of_ne hne v c.x).trans (h.x n hn)

/-- A store of two registers. -/
theorem Saved.stp (ha : Aligned p) (hp : c₀.x 16 = p) (h : Saved c₀ p tf c) (t u : Fin 31) {k : ℕ}
    (hk : k + 1 < 44) :
    ∃ c', (Instr.stp t u (.x 16) (8 * k)).exec (el2_platform addr m) c = some c' ∧
      Saved c₀ p (tf.stp k (c.x t) (c.x u)) c' := by
  have hps : ∀ i ∈ [(t, u, k)], i.2.2 + 1 < 44 ∧ c.x i.1 = c.x i.1 ∧ c.x i.2.1 = c.x i.2.1 := by
    intro i hi
    rw [List.mem_singleton.mp hi]
    exact ⟨hk, rfl, rfl⟩
  obtain ⟨c', hblock, -, hsaved⟩ := h.pairs addr m ha hp c.x [(t, u, k)] hps
  refine ⟨c', ?_, hsaved⟩
  rw [← hblock, List.map_cons, block_cons, exec_stp ha (h.base hp)]
  rfl

/-- `mrs x0, r` and the store of `x0`. -/
theorem Saved.reg (ha : Aligned p) (hp : c₀.x 16 = p) (h : Saved c₀ p tf c) (r : SysReg) {k : ℕ}
    (hk : k < 44) :
    ∃ c', block (el2_platform addr m) [.mrs 0 r, .str 0 (.x 16) (8 * k)] c = some c' ∧
      Saved c₀ p (tf.str k (({ m with sys := c₀.sys } : Machine).mrs r)) c' := by
  have h₁ := h.setX (t := 0) (by decide) (({ m with sys := c.sys } : Machine).mrs r)
  obtain ⟨c', hexec, -, hsaved⟩ := h₁.str addr m ha hp 0 hk
  refine ⟨c', ?_, ?_⟩
  · exact block_step rfl (block_step hexec rfl)
  · rw [← h.sys]
    exact hsaved

/-- `mrs x0, r`, `mrs x1, r'` and the store of both. -/
theorem Saved.regs (ha : Aligned p) (hp : c₀.x 16 = p) (h : Saved c₀ p tf c) (r r' : SysReg) {k : ℕ}
    (hk : k + 1 < 44) :
    ∃ c', block (el2_platform addr m) [.mrs 0 r, .mrs 1 r', .stp 0 1 (.x 16) (8 * k)] c = some c' ∧
      Saved c₀ p (tf.stp k (({ m with sys := c₀.sys } : Machine).mrs r)
        (({ m with sys := c₀.sys } : Machine).mrs r')) c' := by
  have h₁ := h.setX (t := 0) (by decide) (({ m with sys := c.sys } : Machine).mrs r)
  have h₂ := h₁.setX (t := 1) (by decide) (({ m with sys := c.sys } : Machine).mrs r')
  obtain ⟨c', hexec, hsaved⟩ := h₂.stp addr m ha hp 0 1 hk
  refine ⟨c', ?_, ?_⟩
  · exact block_step rfl (block_step rfl (block_step hexec rfl))
  · rw [← h.sys]
    exact hsaved

/-- The physical timer: its compare value is stored as a virtual count. -/
theorem Saved.cntp (ha : Aligned p) (hp : c₀.x 16 = p) (h : Saved c₀ p tf c) :
    ∃ c', block (el2_platform addr m) [.mrs 0 .CNTP_CTL_EL0, .mrs 1 .CNTP_CVAL_EL0, .mrs 2 .CNTVOFF_EL2,
        .add 1 1 2, .stp 0 1 (.x 16) (8 * 40)] c = some c' ∧
      Saved c₀ p (tf.stp 40 (({ m with sys := c₀.sys } : Machine).mrs .CNTP_CTL_EL0)
        (c₀.sys .CNTP_CVAL_EL0 + c₀.sys .CNTVOFF_EL2)) c' := by
  have h₁ := h.setX (t := 0) (by decide) (({ m with sys := c.sys } : Machine).mrs .CNTP_CTL_EL0)
  have h₂ := h₁.setX (t := 1) (by decide) (c.sys .CNTP_CVAL_EL0)
  have h₃ := h₂.setX (t := 2) (by decide) (c.sys .CNTVOFF_EL2)
  have h₄ := h₃.setX (t := 1) (by decide) (c.sys .CNTP_CVAL_EL0 + c.sys .CNTVOFF_EL2)
  obtain ⟨c', hexec, hsaved⟩ := h₄.stp addr m ha hp 0 1 (k := 40) (by decide)
  refine ⟨c', ?_, ?_⟩
  · exact block_step rfl (block_step rfl (block_step rfl (block_step rfl (block_step hexec rfl))))
  · rw [← h.sys]
    exact hsaved

/-- The registers that are stored before `x0` is needed, and those behind it. -/
def lowPairs : List (Fin 31 × Fin 31 × ℕ) :=
  [(0, 1, 0), (2, 3, 2), (4, 5, 4), (6, 7, 6), (8, 9, 8), (10, 11, 10), (12, 13, 12), (14, 15, 14)]

def highPairs : List (Fin 31 × Fin 31 × ℕ) :=
  [(0, 17, 16), (18, 19, 18), (20, 21, 20), (22, 23, 22), (24, 25, 24), (26, 27, 26), (28, 29, 28)]

/-- The registers of the guest once `x0` holds its `x16`. -/
def recovered (m : Machine) : Fin 31 → U64 := Function.update m.x 0 (m.x 16)

/-- The registers `x0`-`x30`. The guest's `x16` is on the stack. -/
theorem saved_gprs (ha : Aligned p) (hp : c₀.x 16 = p) (hx : ∀ n, n ≠ 16 → c₀.x n = m.x n)
    (hsp : c₀.sp.toNat % 16 = 0) (hx16 : c₀.mem (c₀.sp + 16) = m.x 16)
    (hfree : ¬ InSlots p 44 (c₀.sp + 16)) (hf : FrameAt c₀.mem p tf) :
    ∃ c, block (el2_platform addr m) (lowPairs.map (fun i => .stp i.1 i.2.1 (.x 16) (8 * i.2.2)) ++
        (.ldr 0 .sp 16 :: (highPairs.map (fun i => .stp i.1 i.2.1 (.x 16) (8 * i.2.2)) ++
          [.str 30 (.x 16) (8 * 30)]))) c₀ = some c ∧
      Saved c₀ p ((highPairs.foldl (fun tf i => tf.stp i.2.2 (recovered m i.1) (recovered m i.2.1))
        (lowPairs.foldl (fun tf i => tf.stp i.2.2 (m.x i.1) (m.x i.2.1)) tf)).str 30 (m.x 30)) c := by
  have h₀ : Saved c₀ p tf c₀ := ⟨hf, fun _ _ => rfl, fun _ _ => rfl, rfl, rfl⟩
  have hlow : ∀ i ∈ lowPairs, i.2.2 + 1 < 44 ∧ c₀.x i.1 = m.x i.1 ∧ c₀.x i.2.1 = m.x i.2.1 := by
    intro i hi
    have hne : ∀ i ∈ lowPairs, i.2.2 + 1 < 44 ∧ i.1 ≠ 16 ∧ i.2.1 ≠ 16 := by decide
    obtain ⟨hk, h₁, h₂⟩ := hne i hi
    exact ⟨hk, hx _ h₁, hx _ h₂⟩
  obtain ⟨c₁, hb₁, -, h₁⟩ := h₀.pairs addr m ha hp m.x lowPairs hlow
  have hload : (Instr.ldr 0 .sp 16).exec (el2_platform addr m) c₁ = some (c₁.setX 0 (m.x 16)) := by
    have hval : c₁.mem (c₁.sp + BitVec.ofNat 64 (8 * 2)) = m.x 16 := by
      rw [h₁.sp]
      exact (h₁.outside _ hfree).trans hx16
    rw [← h₁.sp] at hsp
    rw [← hval]
    exact exec_ldr_sp hsp 0 2
  have h₂ := h₁.setX (t := 0) (by decide) (m.x 16)
  have hhigh : ∀ i ∈ highPairs, i.2.2 + 1 < 44 ∧ (c₁.setX 0 (m.x 16)).x i.1 = recovered m i.1 ∧
      (c₁.setX 0 (m.x 16)).x i.2.1 = recovered m i.2.1 := by
    have hne : ∀ i ∈ highPairs, i.2.2 + 1 < 44 ∧ (i.1 ≠ 0 → 3 ≤ i.1 ∧ i.1 ≠ 16) ∧ i.2.1 ≠ 0 ∧ 3 ≤ i.2.1 ∧
      i.2.1 ≠ 16 := by decide
    have hreg : ∀ n, (n ≠ 0 → 3 ≤ n ∧ n ≠ 16) → (c₁.setX 0 (m.x 16)).x n = recovered m n := by
      intro n hn
      show Function.update c₁.x 0 _ n = Function.update m.x 0 _ n
      rw [Function.update_apply, Function.update_apply]
      split
      · rfl
      · rename_i h
        rw [h₁.x n (hn h).1, hx n (hn h).2]
    intro i hi
    obtain ⟨hk, h₁, h₂⟩ := hne i hi
    exact ⟨hk, hreg _ h₁, hreg _ fun _ => h₂.2⟩
  obtain ⟨c₃, hb₃, -, h₃⟩ := h₂.pairs addr m ha hp (recovered m) highPairs hhigh
  obtain ⟨c₄, hb₄, -, h₄⟩ := h₃.str addr m ha hp 30 (k := 30) (by decide)
  rw [h₃.x 30 (by decide), hx 30 (by decide)] at h₄
  exact ⟨c₄, block_trans hb₁ (block_step hload (block_trans hb₃ (block_step hb₄ rfl))), h₄⟩

/-- The save path stores the frame of `el2_vector_save`. -/
theorem vector_save_saved (ha : Aligned p) (hp : c₀.x 16 = p) (hx : ∀ n, n ≠ 16 → c₀.x n = m.x n)
    (hsys : c₀.sys = m.sys) (hsp : c₀.sp.toNat % 16 = 0) (hx16 : c₀.mem (c₀.sp + 16) = m.x 16)
    (hfree : ¬ InSlots p 44 (c₀.sp + 16)) (hf : FrameAt c₀.mem p tf) (code : U64) :
    ∃ c, block (el2_platform addr m) vector_save c₀ = some c ∧
      Saved c₀ p (el2_vector_save code m tf) c := by
  have hm : ({ m with sys := c₀.sys } : Machine) = m := by rw [hsys]
  obtain ⟨c₁, hb₁, h₁⟩ := saved_gprs addr m ha hp hx hsp hx16 hfree hf
  obtain ⟨c₂, hb₂, h₂⟩ := h₁.reg addr m ha hp .SP_EL1 (k := 31) (by decide)
  obtain ⟨c₃, hb₃, h₃⟩ := h₂.reg addr m ha hp .ELR_EL2 (k := 32) (by decide)
  obtain ⟨c₄, hb₄, h₄⟩ := h₃.reg addr m ha hp .SPSR_EL2 (k := 33) (by decide)
  obtain ⟨c₅, hb₅, h₅⟩ := h₄.regs addr m ha hp .TTBR0_EL1 .TTBR1_EL1 (k := 34) (by decide)
  obtain ⟨c₆, hb₆, h₆⟩ := h₅.regs addr m ha hp .TCR_EL1 .SCTLR_EL1 (k := 36) (by decide)
  obtain ⟨c₇, hb₇, h₇⟩ := h₆.regs addr m ha hp .TPIDR_EL1 .CNTKCTL_EL1 (k := 38) (by decide)
  obtain ⟨c₈, hb₈, h₈⟩ := h₇.cntp addr m ha hp
  obtain ⟨c₉, hb₉, h₉⟩ := h₈.regs addr m ha hp .CNTV_CTL_EL0 .CNTV_CVAL_EL0 (k := 42) (by decide)
  rw [hm, hsys] at h₉
  refine ⟨c₉, ?_, h₉⟩
  have hblock := block_trans hb₁ (block_trans hb₂ (block_trans hb₃ (block_trans hb₄ (block_trans hb₅
    (block_trans hb₆ (block_trans hb₇ (block_trans hb₈ hb₉)))))))
  exact hblock

end Save

/-! ## From a slot to the handler -/

section Vector

variable {addr : Sym → U64} {code : Code SysReg Sym}

/-- The parts of `el2_vector_common`, each where control finds it. -/
theorem El2Image.parts (hI : El2Image addr code) :
    Placed code (addr .el2_vector_common) vector_push ∧
    code (addr .el2_vector_common + BitVec.ofNat 64 (4 * vector_push.length)) =
      some (.cbz 16 .el2_vector_common_2) ∧
    Placed code (addr .el2_vector_common + BitVec.ofNat 64 (4 * vector_push.length) + 4)
      (vector_save ++ vector_clear) ∧
    Placed code (addr .el2_vector_common_2) vector_args ∧
    code (addr .el2_vector_common_2 + BitVec.ofNat 64 (4 * vector_args.length)) =
      some (.bl .el2_exception_common) ∧
    Placed code (vector_return addr) vector_restore ∧
    code (vector_return addr + BitVec.ofNat 64 (4 * vector_restore.length)) = some .ret := by
  have hcommon := hI.common
  rw [vector_common_code, placed_append, Placed, placed_append] at hcommon
  obtain ⟨hpush, hcbz, hsave, htail⟩ := hcommon
  have hlabel : addr .el2_vector_common + BitVec.ofNat 64 (4 * vector_push.length) + 4 +
      BitVec.ofNat 64 (4 * (vector_save ++ vector_clear).length) = addr .el2_vector_common_2 := by
    rw [hI.common_2, behind_succ, behind_add, Nat.add_right_comm, Nat.add_assoc]
  rw [hlabel, placed_append, Placed, placed_append] at htail
  obtain ⟨hargs, hbl, hrestore, hret, -⟩ := htail
  have hreturn : addr .el2_vector_common_2 + BitVec.ofNat 64 (4 * vector_args.length) + 4 =
      vector_return addr := by
    rw [vector_return, ← behind_add]
    rfl
  rw [hreturn] at hrestore hret
  exact ⟨hpush, hcbz, hsave, hargs, hbl, hrestore, hret⟩

variable {D : El2Data addr} {mem : Quadwords} {s : State}

/-- Stores outside of EL2's objects leave them alone. -/
theorem El2Data.Holds.update_outside (h : D.Holds mem s) {a : U64} (ha : ¬ D.Owns a) (v : U64) :
    D.Holds (Function.update mem a v) s := by
  refine ⟨?_, ?_, h.latched⟩
  · intro p hp
    exact (h.frames p hp).update_outside (fun hs => ha (.inl ⟨p, hp, hs⟩)) v
  · have hne : addr .current_trapframe ≠ a := fun he => ha (.inr (.inl he.symm))
    rw [Function.update_of_ne hne]
    exact h.latch

/-- The memory after the two pushes. -/
def pushed (c : Cpu SysReg) (code : U64) : Quadwords :=
  Function.update (Function.update c.mem (c.sp - 16) (c.x 16)) (c.sp - 16 - 16) code

theorem pushed_holds {c : Cpu SysReg} (hsp : D.Stack c.sp) (hmem : D.Holds c.mem s) (v : U64) :
    D.Holds (pushed c v) s :=
  (hmem.update_outside hsp.x16_free _).update_outside hsp.code_free _

/-- From a slot to the branch of `el2_vector_common`. -/
theorem slot_reaches (hI : El2Image addr code) {c : Cpu SysReg} (k : Fin 16)
    (hpc : c.pc = addr .el2_vectors + BitVec.ofNat 64 (0x80 * k)) (hsp : D.Stack c.sp)
    (hmem : D.Holds c.mem s) (m : Machine) :
    Reaches (el2_platform addr m) code c
      { c with
        x := Function.update c.x 16 (D.pointer s.current_trapframe)
        sp := c.sp - 16 - 16
        mem := pushed c (vector_codes k)
        pc := addr .el2_vector_common + BitVec.ofNat 64 (4 * vector_push.length) } := by
  have hslot := hI.slots k
  rw [← hpc] at hslot
  obtain ⟨hcode₁, hcode₂, hb, -⟩ := hslot
  let c₁ : Cpu SysReg := { c with
    x := Function.update c.x 16 (vector_codes k)
    sp := c.sp - 16
    mem := Function.update c.mem (c.sp - 16) (c.x 16) }
  have hslotb : block (el2_platform addr m) [.push 16 16, .mov 16 (vector_codes k)] c = some c₁ :=
    block_step (exec_push hsp.aligned 16) rfl
  have hplaced : Placed code c.pc [.push 16 16, .mov 16 (vector_codes k)] := ⟨hcode₁, hcode₂, trivial⟩
  have hpath₁ := block_reaches hplaced hslotb
  let c₂ : Cpu SysReg := { c₁ with pc := addr .el2_vector_common }
  have hpath₂ : Reaches (el2_platform addr m) code { c₁ with pc := c.pc + BitVec.ofNat 64 (4 * 2) } c₂ := by
    refine step_reaches (i := .b .el2_vector_common) ?_ rfl
    rw [← hb]
    show code (c.pc + _) = code (c.pc + 4 + 4)
    rw [BitVec.add_assoc]
    rfl
  let c₃ : Cpu SysReg := { c₂ with
    x := Function.update c.x 16 (D.pointer s.current_trapframe)
    sp := c.sp - 16 - 16
    mem := pushed c (vector_codes k) }
  have hlatch := (pushed_holds hsp hmem (vector_codes k)).latch
  have hx : Function.update (Function.update (Function.update c.x 16 (vector_codes k)) 16
      (page (addr .current_trapframe))) 16 (pushed c (vector_codes k) (addr .current_trapframe)) =
      Function.update c.x 16 (D.pointer s.current_trapframe) := by
    rw [Function.update_idem, Function.update_idem, hlatch]
  have hpage : Function.update (Function.update c.x 16 (vector_codes k)) 16
      (page (addr .current_trapframe)) 16 = page (addr .current_trapframe) := Function.update_self ..
  have hpush : block (el2_platform addr m) vector_push c₂ = some c₃ := by
    refine block_step (exec_push (stack_sub hsp.aligned) 16) (block_step rfl ?_)
    refine block_step (exec_ldrLo12 D.latch_aligned 16 16 hpage) ?_
    exact congrArg (fun x => some ({ c₃ with x := x } : Cpu SysReg)) hx
  have hpath₃ := block_reaches (c := c₂) hI.parts.1 hpush
  exact hpath₁.trans (hpath₂.trans hpath₃)

/-- The objects after the save path and the clearing of the latch. -/
theorem saved_holds {c c' : Cpu SysReg} {p : VcpuPtr} {v : U64} (hmem : D.Holds c.mem s)
    (hlatch : s.current_trapframe = some p)
    (hs : Saved c (D.frame p) (el2_vector_save v s.m (s.vcpu p).arch.tf) c') :
    D.Holds (Function.update c'.mem (addr .current_trapframe) 0) (el2_vector_common v s) := by
  have hp := hmem.latched p hlatch
  have hcommon : el2_vector_common v s =
      { s.onTf p (el2_vector_save v s.m) with current_trapframe := none } := by
    rw [el2_vector_common, hlatch]
  rw [hcommon]
  refine ⟨?_, Function.update_self _ _ _, fun _ h => absurd h.symm (Option.some_ne_none _)⟩
  intro q hq
  have hclear : ∀ tf, FrameAt c'.mem (D.frame q) tf →
      FrameAt (Function.update c'.mem (addr .current_trapframe) 0) (D.frame q) tf :=
    fun _ h => h.update_outside (D.latch_apart q hq) 0
  by_cases hqp : q = p
  · subst hqp
    have htf : ((s.onTf q (el2_vector_save v s.m)).vcpu q).arch.tf =
        el2_vector_save v s.m (s.vcpu q).arch.tf := by
      rw [State.onTf, State.onArch_arch_self]
    show Quads _ _ 44 ((s.onTf q (el2_vector_save v s.m)).vcpu q).arch.tf.ldr
    rw [htf]
    exact hclear _ hs.frame
  · show Quads _ _ 44 ((s.onTf p (el2_vector_save v s.m)).vcpu q).arch.tf.ldr
    rw [State.onTf, State.onArch_vcpu_of_ne s _ hqp]
    refine hclear _ ((hmem.frames q hq).congr ?_)
    intro a ha
    exact hs.outside a (D.frames_apart q hq p hp hqp a ha)

/-- The vector, at its branch in `c`, has saved what there is to save and reached the label `2`. -/
structure AtLabel (D : El2Data addr) (v : U64) (s : State) (c c' : Cpu SysReg) : Prop where
  pc : c'.pc = addr .el2_vector_common_2
  x : ∀ n, 3 ≤ n → n ≠ 16 → c'.x n = c.x n
  sp : c'.sp = c.sp
  sys : c'.sys = c.sys
  objects : D.Holds c'.mem (el2_vector_common v s)
  memory : ∀ a, (∀ p, s.current_trapframe = some p → ¬ InSlots (D.frame p) 44 a) →
    a ≠ addr .current_trapframe → c'.mem a = c.mem a

theorem label_reaches (hI : El2Image addr code) {c : Cpu SysReg} (v : U64)
    (hpc : c.pc = addr .el2_vector_common + BitVec.ofNat 64 (4 * vector_push.length))
    (hx : ∀ n, n ≠ 16 → c.x n = s.m.x n) (hptr : c.x 16 = D.pointer s.current_trapframe)
    (hsys : c.sys = s.m.sys) (hsp : c.sp.toNat % 16 = 0) (hx16 : c.mem (c.sp + 16) = s.m.x 16)
    (hfree : ¬ D.Owns (c.sp + 16)) (hmem : D.Holds c.mem s) :
    ∃ c', Reaches (el2_platform addr s.m) code c c' ∧ AtLabel D v s c c' := by
  obtain ⟨-, hcbz, hsave, -⟩ := hI.parts
  rw [← hpc] at hcbz hsave
  cases hlatch : s.current_trapframe with
  | none =>
    have hzero : c.x 16 = 0 := by rw [hptr, hlatch, El2Data.pointer]
    have hcommon : el2_vector_common v s = s := by rw [el2_vector_common, hlatch]
    have hstep : (Instr.cbz 16 .el2_vector_common_2).step (el2_platform addr s.m) c =
        some { c with pc := addr .el2_vector_common_2 } := by
      rw [Instr.step, if_pos hzero]
      rfl
    refine ⟨_, step_reaches hcbz hstep, rfl, fun _ _ _ => rfl, rfl, rfl, ?_, fun _ _ _ => rfl⟩
    rw [hcommon]
    exact hmem
  | some p =>
    have hp := hmem.latched p hlatch
    have hframe : c.x 16 = D.frame p := by rw [hptr, hlatch, El2Data.pointer]
    have hne : c.x 16 ≠ 0 := by
      rw [hframe]
      exact D.frame_ne_null p hp
    have hstep : (Instr.cbz 16 .el2_vector_common_2).step (el2_platform addr s.m) c =
        some { c with pc := c.pc + 4 } := by
      rw [Instr.step, if_neg hne]
    obtain ⟨c₁, hb₁, hs⟩ := vector_save_saved addr s.m (D.frame_aligned p hp)
      hframe hx hsys hsp hx16 (fun h => hfree (.inl ⟨p, hp, h⟩)) (hmem.frames p hp) v
    have hclear : block (el2_platform addr s.m) vector_clear c₁ = some { c₁ with
        x := Function.update c₁.x 1 (page (addr .current_trapframe))
        mem := Function.update c₁.mem (addr .current_trapframe) 0 } := by
      exact block_step rfl (block_step (exec_strzLo12 D.latch_aligned 1 (c₁.setX_self 1 _)) rfl)
    have hblock : block (el2_platform addr s.m) (vector_save ++ vector_clear) { c with pc := c.pc + 4 } =
        some { c₁ with
          x := Function.update c₁.x 1 (page (addr .current_trapframe))
          mem := Function.update c₁.mem (addr .current_trapframe) 0
          pc := c.pc + 4 } := by
      rw [block_setPc, block_trans hb₁ hclear]
      rfl
    have hpath := block_reaches (c := { c with pc := c.pc + 4 }) hsave hblock
    refine ⟨_, (step_reaches hcbz hstep).trans hpath, ?_, ?_, hs.sp, hs.sys, saved_holds hmem hlatch hs, ?_⟩
    · show c.pc + 4 + _ = _
      rw [hpc, hI.common_2, behind_succ, behind_add, Nat.add_right_comm, Nat.add_assoc]
    · intro n hn _
      have hn1 : n ≠ 1 := by
        rintro rfl
        exact absurd hn (by decide)
      exact (Function.update_of_ne hn1 _ _).trans (hs.x n hn)
    · intro a ha hla
      exact (Function.update_of_ne hla _ _).trans (hs.outside a (ha p hlatch))

theorem exec_mrs {m : Machine} {c : Cpu SysReg} (hsys : c.sys = m.sys) (t : Fin 31) (r : SysReg) :
    (Instr.mrs t r).exec (el2_platform addr m) c = some (c.setX t (m.mrs r)) := by
  show some (c.setX t (({ m with sys := c.sys } : Machine).mrs r)) = _
  rw [hsys]

/-- From the label `2` to the call of the handler. -/
theorem args_reaches (hI : El2Image addr code) {m : Machine} {c : Cpu SysReg}
    (hpc : c.pc = addr .el2_vector_common_2) (hsp : c.sp.toNat % 16 = 0) (hsys : c.sys = m.sys) :
    ∃ c', Reaches (el2_platform addr m) code c c' ∧ c'.pc = addr .el2_exception_common ∧
      c'.x 30 = vector_return addr ∧ c'.x 0 = m.mrs .ESR_EL2 ∧ c'.x 1 = m.mrs .ELR_EL2 ∧
      c'.x 2 = m.mrs .SPSR_EL2 ∧ c'.x 3 = m.mrs .FAR_EL2 ∧ c'.x 4 = c.mem c.sp ∧
      c'.x 16 = c.mem (c.sp + 16) ∧ (∀ n, 5 ≤ n → n ≠ 16 → n ≠ 30 → c'.x n = c.x n) ∧
      c'.sp = c.sp + 16 + 16 ∧ c'.sys = c.sys ∧ c'.mem = c.mem := by
  obtain ⟨-, -, -, hargs, hbl, -⟩ := hI.parts
  rw [← hpc] at hargs hbl
  have h0 : ∀ a : U64, a + BitVec.ofNat 64 (8 * 0) = a := BitVec.add_zero
  let c₁ := c.setX 4 (c.mem c.sp)
  let c₂ : Cpu SysReg := { c₁ with sp := c.sp + 16 }
  let c₃ : Cpu SysReg := { c₂.setX 16 (c.mem (c.sp + 16)) with sp := c.sp + 16 + 16 }
  let c₄ := c₃.setX 0 (m.mrs .ESR_EL2)
  let c₅ := c₄.setX 1 (m.mrs .ELR_EL2)
  let c₆ := c₅.setX 2 (m.mrs .SPSR_EL2)
  let c₇ := c₆.setX 3 (m.mrs .FAR_EL2)
  have hcode : (Instr.ldr 4 .sp 0).exec (el2_platform addr m) c = some c₁ := by
    have hload := exec_ldr_sp (P := el2_platform addr m) hsp 4 0
    rw [h0] at hload
    exact hload
  have hguest : (Instr.ldr 16 .sp 0).exec (el2_platform addr m) c₂ =
      some (c₂.setX 16 (c.mem (c.sp + 16))) := by
    have hload := exec_ldr_sp (P := el2_platform addr m) (c := c₂) (stack_add hsp) 16 0
    rw [h0] at hload
    exact hload
  have hsyndrome : block (el2_platform addr m)
      [.mrs 0 .ESR_EL2, .mrs 1 .ELR_EL2, .mrs 2 .SPSR_EL2, .mrs 3 .FAR_EL2] c₃ = some c₇ :=
    block_step (exec_mrs (c := c₃) hsys 0 _) (block_step (exec_mrs (c := c₄) hsys 1 _)
      (block_step (exec_mrs (c := c₅) hsys 2 _) (block_step (exec_mrs (c := c₆) hsys 3 _) rfl)))
  have hblock : block (el2_platform addr m) vector_args c = some c₇ :=
    block_step hcode (block_step rfl (block_step hguest (block_step rfl hsyndrome)))
  have hpath := block_reaches hargs hblock
  refine ⟨_, hpath.trans (step_reaches hbl rfl), rfl, ?_, rfl, rfl, rfl, rfl, rfl, rfl, ?_, rfl, rfl, rfl⟩
  · show c.pc + BitVec.ofNat 64 (4 * vector_args.length) + 4 = _
    rw [hpc, vector_return, ← behind_add]
    rfl
  · intro n hn h16 h30
    have h4 : n ≠ 4 ∧ n ≠ 3 ∧ n ≠ 2 ∧ n ≠ 1 ∧ n ≠ 0 := by omega
    obtain ⟨h4, h3, h2, h1, h0⟩ := h4
    show (c₇.setX 30 _).x n = _
    rw [Cpu.setX_of_ne _ h30, Cpu.setX_of_ne _ h3, Cpu.setX_of_ne _ h2, Cpu.setX_of_ne _ h1,
      Cpu.setX_of_ne _ h0]
    exact (Cpu.setX_of_ne c₂ h16 _).trans (Cpu.setX_of_ne c h4 _)

/-- An exception taken from any slot becomes the call of the handler. -/
theorem vector_reaches_handler (hI : El2Image addr code) {c : Cpu SysReg} (k : Fin 16)
    (hpc : c.pc = addr .el2_vectors + BitVec.ofNat 64 (0x80 * k)) (hsp : D.Stack c.sp)
    (hx : c.x = s.m.x) (hsys : c.sys = s.m.sys) (hmem : D.Holds c.mem s) :
    ∃ c', Reaches (el2_platform addr s.m) code c c' ∧ AtHandler D k s c c' := by
  have hpop : c.sp - 16 - 16 + 16 = c.sp - 16 := BitVec.sub_add_cancel _ _
  have hpop' : c.sp - 16 + 16 = c.sp := BitVec.sub_add_cancel _ _
  have hne : c.sp - 16 ≠ c.sp - 16 - 16 := by
    intro h
    have hdiff : c.sp - 16 - (c.sp - 16 - 16) = 16 := sub_sub_cancel _ _
    rw [← h, sub_self] at hdiff
    exact absurd hdiff (by decide)
  have hx16 : pushed c (vector_codes k) (c.sp - 16) = c.x 16 := by
    rw [pushed, Function.update_of_ne hne, Function.update_self]
  have hcode : pushed c (vector_codes k) (c.sp - 16 - 16) = vector_codes k := Function.update_self ..
  let c₁ : Cpu SysReg := { c with
    x := Function.update c.x 16 (D.pointer s.current_trapframe)
    sp := c.sp - 16 - 16
    mem := pushed c (vector_codes k)
    pc := addr .el2_vector_common + BitVec.ofNat 64 (4 * vector_push.length) }
  have hslot : Reaches (el2_platform addr s.m) code c c₁ := slot_reaches hI k hpc hsp hmem s.m
  have hregs : ∀ n, n ≠ 16 → c₁.x n = s.m.x n := by
    intro n hn
    rw [← hx]
    exact Function.update_of_ne hn _ _
  have hptr : c₁.x 16 = D.pointer s.current_trapframe := by simp [c₁]
  have hstack : c₁.mem (c₁.sp + 16) = s.m.x 16 := by
    show pushed c (vector_codes k) (c.sp - 16 - 16 + 16) = _
    rw [hpop, hx16, hx]
  have hfree : ¬ D.Owns (c₁.sp + 16) := by
    show ¬ D.Owns (c.sp - 16 - 16 + 16)
    rw [hpop]
    exact hsp.x16_free
  have hsp₁ : c₁.sp.toNat % 16 = 0 := stack_sub (stack_sub hsp.aligned)
  obtain ⟨c₂, hlabel, h₂⟩ := label_reaches (c := c₁) hI (vector_codes k) rfl hregs hptr hsys hsp₁ hstack hfree
    (pushed_holds hsp hmem (vector_codes k))
  have hsp₂ : c₂.sp.toNat % 16 = 0 := by
    rw [h₂.sp]
    exact hsp₁
  obtain ⟨c₃, hargs, hpc₃, hlink, hesr, helr, hspsr, hfar, hcode₃, hx16₃, hx₃, hsp₃, hsys₃, hmem₃⟩ :=
    args_reaches hI (m := s.m) h₂.pc hsp₂ (h₂.sys.trans hsys)
  have hmem₂ : ∀ a, ¬ D.Owns a → c₂.mem a = c₁.mem a := by
    intro a ha
    refine h₂.memory a ?_ fun h => ha (.inr (.inl h))
    intro p hp hs
    exact ha (.inl ⟨p, hmem.latched p hp, hs⟩)
  refine ⟨c₃, hslot.trans (hlabel.trans hargs), hpc₃, hlink, hesr, helr, hspsr, hfar, ?_, ?_, ?_,
    hsys₃.trans h₂.sys, ?_, ?_⟩
  · rw [hcode₃, h₂.sp, hmem₂ _ hsp.code_free]
    exact hcode
  · intro n hn h30
    by_cases h16 : n = 16
    · rw [h16, hx16₃, h₂.sp, hpop, hmem₂ _ hsp.x16_free]
      exact hx16
    · have h3 : 3 ≤ n := by omega
      rw [hx₃ n hn h16 h30, h₂.x n h3 h16]
      exact Function.update_of_ne h16 _ _
  · rw [hsp₃, h₂.sp, hpop, hpop']
  · rw [hmem₃]
    exact h₂.objects
  · intro a ha hla h₁₆ h₃₂
    rw [hmem₃, h₂.memory a ha hla]
    exact (Function.update_of_ne h₃₂ _ _).trans (Function.update_of_ne h₁₆ _ _)

end Vector

/-! ## `vcpu_switch_asm` -/

/-- The registers that the host saves, by quadword. -/
def hostSlots : List (Fin 31 × Fin 31 × ℕ) :=
  [(19, 20, 0), (21, 22, 2), (23, 24, 4), (25, 26, 6), (27, 28, 8), (29, 30, 10)]

/-- The registers of a guest, by quadword; `x0` comes last. -/
def guestSlots : List (Fin 31 × Fin 31 × ℕ) :=
  [(1, 2, 1), (3, 4, 3), (5, 6, 5), (7, 8, 7), (9, 10, 9), (11, 12, 11), (13, 14, 13), (15, 16, 15),
    (17, 18, 17), (19, 20, 19), (21, 22, 21), (23, 24, 23), (25, 26, 25), (27, 28, 27), (29, 30, 29)]

section SysRegs

variable (addr : Sym → U64) {m₀ m : Machine} {c₀ c : Cpu SysReg} {p : U64} {tf : Trapframe}

/-- The switch to the frame `tf` at `p` has written the system registers of `m` so far. -/
structure Switching (c₀ : Cpu SysReg) (p : U64) (tf : Trapframe) (m : Machine) (c : Cpu SysReg) : Prop where
  frame : FrameAt c.mem p tf
  x0 : c.x 0 = p
  sp : c.sp = c₀.sp
  mem : c.mem = c₀.mem
  sys : c.sys = m.sys

theorem Switching.ldr (ha : Aligned p) (h : Switching c₀ p tf m c) (r : SysReg) {k : ℕ} (hk : k < 44) :
    ∃ c', block (el2_platform addr m₀) [.ldr 1 (.x 0) (8 * k), .msr r 1] c = some c' ∧
      Switching c₀ p tf (m.msr r (tf.ldr k)) c' := by
  have hbase : c.base (.x 0) = some p := congrArg some h.x0
  refine ⟨_, block_step (exec_ldr ha hbase h.frame 1 hk) (block_step rfl rfl), h.frame, ?_, h.sp, h.mem, ?_⟩
  · exact (c.setX_of_ne (n := 0) (t := 1) (by decide) (tf.ldr k)).trans h.x0
  · show Function.update c.sys r ((c.setX 1 (tf.ldr k)).x 1) = Function.update m.sys r (tf.ldr k)
    rw [Cpu.setX_self, h.sys]

theorem Switching.ldp (ha : Aligned p) (h : Switching c₀ p tf m c) (r r' : SysReg) {k : ℕ}
    (hk : k + 1 < 44) :
    ∃ c', block (el2_platform addr m₀) [.ldp 1 2 (.x 0) (8 * k), .msr r 1, .msr r' 2] c = some c' ∧
      Switching c₀ p tf ((m.msr r (tf.ldr k)).msr r' (tf.ldr (k + 1))) c' := by
  have hbase : c.base (.x 0) = some p := congrArg some h.x0
  refine ⟨_, block_step (exec_ldp ha hbase h.frame 1 2 hk) (block_step rfl (block_step rfl rfl)), h.frame, ?_,
    h.sp, h.mem, ?_⟩
  · have h2 := (c.setX 1 (tf.ldr k)).setX_of_ne (n := 0) (t := 2) (by decide) (tf.ldr (k + 1))
    exact h2.trans ((c.setX_of_ne (n := 0) (t := 1) (by decide) (tf.ldr k)).trans h.x0)
  · show Function.update (Function.update c.sys r _) r' _ =
      Function.update (Function.update m.sys r (tf.ldr k)) r' (tf.ldr (k + 1))
    rw [h.sys]
    rfl

/-- The physical timer: the compare value of the frame is converted to the physical count. -/
theorem Switching.cntp (ha : Aligned p) (h : Switching c₀ p tf m c) :
    ∃ c', block (el2_platform addr m₀) [.ldp 1 2 (.x 0) (8 * 40), .mrs 3 .CNTVOFF_EL2, .sub 2 2 3,
        .and 1 1 0x3, .msr .CNTP_CVAL_EL0 2, .msr .CNTP_CTL_EL0 1] c = some c' ∧
      Switching c₀ p tf ((m.msr .CNTP_CVAL_EL0 (tf.ldr 41 - m.mrs .CNTVOFF_EL2)).msr .CNTP_CTL_EL0
        (tf.ldr 40 &&& 0x3)) c' := by
  have hbase : c.base (.x 0) = some p := congrArg some h.x0
  refine ⟨_, block_step (exec_ldp ha hbase h.frame 1 2 (k := 40) (by decide)) (block_step rfl (block_step rfl
    (block_step rfl (block_step rfl (block_step rfl rfl))))), h.frame, h.x0, h.sp, h.mem, ?_⟩
  show Function.update (Function.update c.sys _ (tf.ldr 41 - c.sys .CNTVOFF_EL2)) _ (tf.ldr 40 &&& 0x3) =
    Function.update (Function.update m.sys _ (tf.ldr 41 - m.sys .CNTVOFF_EL2)) _ (tf.ldr 40 &&& 0x3)
  rw [h.sys]

/-- The virtual timer. -/
theorem Switching.cntv (ha : Aligned p) (h : Switching c₀ p tf m c) :
    ∃ c', block (el2_platform addr m₀) [.ldp 1 2 (.x 0) (8 * 42), .and 1 1 0x3, .msr .CNTV_CVAL_EL0 2,
        .msr .CNTV_CTL_EL0 1, .isb] c = some c' ∧
      Switching c₀ p tf ((m.msr .CNTV_CVAL_EL0 (tf.ldr 43)).msr .CNTV_CTL_EL0 (tf.ldr 42 &&& 0x3)) c' := by
  have hbase : c.base (.x 0) = some p := congrArg some h.x0
  refine ⟨_, block_step (exec_ldp ha hbase h.frame 1 2 (k := 42) (by decide)) (block_step rfl (block_step rfl
    (block_step rfl (block_step rfl rfl)))), h.frame, h.x0, h.sp, h.mem, ?_⟩
  show Function.update (Function.update c.sys _ (tf.ldr 43)) _ (tf.ldr 42 &&& 0x3) =
    Function.update (Function.update m.sys _ (tf.ldr 43)) _ (tf.ldr 42 &&& 0x3)
  rw [h.sys]

end SysRegs

section Switch

variable {addr : Sym → U64} {code : Code SysReg Sym} {D : El2Data addr} {s : State}

theorem hostSlots_save (x : Fin 31 → U64) (sp pc : U64) (area : HostSavedArea) :
    ∀ k < 13, Function.update (savePairs x hostSlots fun k => area (8 * k)) 12 sp k =
      host_save ⟨x, sp, pc⟩ area (8 * k) := by
  intro k hk
  interval_cases k <;> rfl

/-- The head of `vcpu_switch_asm` fills `host_saved_area`. -/
theorem switch_save_block {m : Machine} {c : Cpu SysReg} {area : HostSavedArea}
    (ha : Aligned (addr .host_saved_area)) (harea : AreaAt addr c.mem area) :
    ∃ c', block (el2_platform addr m) switch_save c = some c' ∧ c'.sp = c.sp ∧ c'.sys = c.sys ∧
      c'.x 0 = c.x 0 ∧ AreaAt addr c'.mem (host_save ⟨c.x, c.sp, c.pc⟩ area) ∧
      ∀ a, ¬ InSlots (addr .host_saved_area) 13 a → c'.mem a = c.mem a := by
  let c₁ := (c.setX 2 (page (addr .host_saved_area))).setX 2 (addr .host_saved_area)
  have hbase : c₁.base (.x 2) = some (addr .host_saved_area) := congrArg some (Cpu.setX_self _ _ _)
  have hps : ∀ i ∈ hostSlots, i.2.2 + 1 < 13 := by decide
  obtain ⟨mem, hb, hquads, hout⟩ := stp_pairs (P := el2_platform addr m) (c := c₁) (n := 13) (by decide) ha
    hbase hostSlots hps harea
  let c₂ : Cpu SysReg := { c₁.setX 3 c.sp with mem := mem }
  have hbase₂ : c₂.base (.x 2) = some (addr .host_saved_area) := hbase
  have hmov : (Instr.movFromSp 3).exec (el2_platform addr m) { c₁ with mem := mem } = some c₂ := rfl
  refine ⟨_, block_step rfl (block_step (exec_addLo12 2 2 (Cpu.setX_self _ _ _)) (block_trans hb
    (block_step hmov (block_step (exec_str ha hbase₂ 3 12) rfl)))), rfl, rfl, rfl, ?_, ?_⟩
  · intro k hk
    have hx : savePairs c₁.x hostSlots (fun k => area (8 * k)) =
        savePairs c.x hostSlots fun k => area (8 * k) :=
      rfl
    have hslot := (hquads.update (by decide) (k := 12) (by decide) c.sp) k hk
    rw [hx, hostSlots_save c.x c.sp c.pc area k hk] at hslot
    exact hslot
  · intro a ha
    have hne : a ≠ addr .host_saved_area + BitVec.ofNat 64 (8 * 12) := fun h => ha ⟨12, by decide, h⟩
    exact (Function.update_of_ne hne _ _).trans (hout a ha)

theorem guestSlots_load (x : Fin 31 → U64) (tf : Trapframe) :
    Function.update (loadPairs tf.ldr guestSlots x) 0 (tf.ldr 0) = tf.regs := by
  funext i
  fin_cases i <;> rfl

/-- `vcpu_switch_asm` saves the host's registers, and enters the guest as the function of that name says. -/
theorem switch_reaches_guest (hI : El2Image addr code) {c : Cpu SysReg} {p : VcpuPtr} {area : HostSavedArea}
    (hpc : c.pc = addr .vcpu_switch_asm) (hp : p < D.count) (hx0 : c.x 0 = D.frame p) (hsys : c.sys = s.m.sys)
    (hmem : D.Holds c.mem s) (harea : AreaAt addr c.mem area) :
    ∃ c', Reaches (el2_platform addr s.m) code c c' ∧ c'.pc = (s.vcpu p).arch.tf.elr_el1 ∧
      c'.x = (vcpu_switch_asm s.m (s.vcpu p).arch.tf).x ∧
      c'.sys = (vcpu_switch_asm s.m (s.vcpu p).arch.tf).sys ∧ c'.sp = c.sp ∧
      AreaAt addr c'.mem (host_save ⟨c.x, c.sp, c.pc⟩ area) ∧
      ∀ a, ¬ InSlots (addr .host_saved_area) 13 a → c'.mem a = c.mem a := by
  set tf := (s.vcpu p).arch.tf with htf
  have ha := D.frame_aligned p hp
  obtain ⟨c₁, hb₁, hsp₁, hsys₁, hx₁, harea₁, hout₁⟩ := switch_save_block (m := s.m) D.area_aligned harea
  have hframe : FrameAt c₁.mem (D.frame p) tf :=
    (hmem.frames p hp).congr fun a hf => hout₁ a fun har => D.area_apart p hp a har hf
  have h₁ : Switching c₁ (D.frame p) tf s.m c₁ :=
    ⟨hframe, hx₁.trans hx0, rfl, rfl, hsys₁.trans hsys⟩
  obtain ⟨c₂, hb₂, h₂⟩ := h₁.ldr addr ha .SP_EL1 (k := 31) (by decide)
  obtain ⟨c₃, hb₃, h₃⟩ := h₂.ldr addr ha .ELR_EL2 (k := 32) (by decide)
  obtain ⟨c₄, hb₄, h₄⟩ := h₃.ldr addr ha .SPSR_EL2 (k := 33) (by decide)
  obtain ⟨c₅, hb₅, h₅⟩ := h₄.ldp addr ha .TTBR0_EL1 .TTBR1_EL1 (k := 34) (by decide)
  obtain ⟨c₆, hb₆, h₆⟩ := h₅.ldp addr ha .TCR_EL1 .SCTLR_EL1 (k := 36) (by decide)
  obtain ⟨c₇, hb₇, h₇⟩ := h₆.ldp addr ha .TPIDR_EL1 .CNTKCTL_EL1 (k := 38) (by decide)
  obtain ⟨c₈, hb₈, h₈⟩ := h₇.cntp addr ha
  obtain ⟨c₉, hb₉, h₉⟩ := h₈.cntv addr ha
  have hbsys : block (el2_platform addr s.m) switch_sysregs c₁ = some c₉ :=
    block_trans hb₂ (block_trans hb₃ (block_trans hb₄ (block_step rfl (block_trans hb₅ (block_trans hb₆
      (block_trans hb₇ (block_trans hb₈ hb₉)))))))
  have hps : ∀ i ∈ guestSlots, i.1 ≠ 0 ∧ i.2.1 ≠ 0 ∧ i.2.2 + 1 < 44 := by decide
  have hp₉ : Aligned (c₉.x 0) := by
    rw [h₉.x0]
    exact ha
  have hf₉ : Quads c₉.mem (c₉.x 0) 44 tf.ldr := by
    rw [h₉.x0]
    exact h₉.frame
  let c₁₀ : Cpu SysReg := { c₉ with x := loadPairs tf.ldr guestSlots c₉.x }
  have hb₁₀ := ldp_pairs (P := el2_platform addr s.m) hp₉ guestSlots hps hf₉
  have hlast : (Instr.ldr 0 (.x 0) (8 * 0)).exec (el2_platform addr s.m) c₁₀ =
      some (c₁₀.setX 0 (tf.ldr 0)) :=
    exec_ldr (c := c₁₀) hp₉ rfl hf₉ 0 (by decide)
  have hblock : block (el2_platform addr s.m) (switch_save ++ switch_sysregs ++ switch_gprs) c =
      some (c₁₀.setX 0 (tf.ldr 0)) :=
    block_trans (block_trans hb₁ hbsys) (block_trans hb₁₀ (block_step hlast rfl))
  have hswitch := hI.switch
  rw [vcpu_switch_code, placed_append, ← hpc] at hswitch
  obtain ⟨hbody, heret, -⟩ := hswitch
  have hpath := block_reaches hbody hblock
  have hsys₁₀ : c₉.sys = (vcpu_switch_asm s.m tf).sys := h₉.sys
  refine ⟨_, hpath.trans (step_reaches heret rfl), ?_, ?_, hsys₁₀, ?_, ?_, ?_⟩
  · show c₉.sys .ELR_EL2 = _
    rw [hsys₁₀]
    rfl
  · rw [vcpu_switch_asm_x]
    exact guestSlots_load c₉.x tf
  · exact h₉.sp.trans hsp₁
  · show AreaAt addr c₉.mem _
    rw [h₉.mem]
    exact harea₁
  · intro a har
    show c₉.mem a = _
    rw [h₉.mem]
    exact hout₁ a har

/-! ## The whole call -/

/-- The end of `el2_vector_common`. -/
theorem vector_restore_reaches (hI : El2Image addr code) (D : El2Data addr) {m : Machine} {c : Cpu SysReg}
    {area : HostSavedArea} (hpc : c.pc = vector_return addr) (harea : AreaAt addr c.mem area) :
    ∃ c', Reaches (el2_platform addr m) code c c' ∧ c'.mem = c.mem ∧ c'.sys = c.sys ∧
      (⟨c'.x, c'.sp, c'.pc⟩ : HostContext) = el2_vector_return (addr .host_saved_area) area c.x := by
  obtain ⟨-, -, -, -, -, hrestore, hret⟩ := hI.parts
  rw [← hpc] at hrestore hret
  let c₁ := (c.setX 2 (page (addr .host_saved_area))).setX 2 (addr .host_saved_area)
  have hbase : c₁.x 2 = addr .host_saved_area := Cpu.setX_self _ _ _
  have hal : Aligned (c₁.x 2) := by
    rw [hbase]
    exact D.area_aligned
  have hq : Quads c₁.mem (c₁.x 2) 13 fun k => area (8 * k) := by
    rw [hbase]
    exact harea
  have hps : ∀ i ∈ hostSlots, i.1 ≠ 2 ∧ i.2.1 ≠ 2 ∧ i.2.2 + 1 < 13 := by decide
  have hload := ldp_pairs (P := el2_platform addr m) hal hostSlots hps hq
  let c₂ : Cpu SysReg := { c₁ with x := loadPairs (fun k => area (8 * k)) hostSlots c₁.x }
  have hsp : (Instr.ldr 1 (.x 2) (8 * 12)).exec (el2_platform addr m) c₂ = some (c₂.setX 1 (area 96)) :=
    exec_ldr (c := c₂) hal rfl hq 1 (k := 12) (by decide)
  let c₃ : Cpu SysReg := { c₂.setX 1 (area 96) with sp := area 96 }
  have hblock : block (el2_platform addr m) vector_restore c = some c₃ :=
    block_step rfl (block_step (exec_addLo12 2 2 (Cpu.setX_self _ _ _)) (block_trans hload
      (block_step hsp (block_step rfl rfl))))
  have hx : c₁.x = Function.update c.x 2 (addr .host_saved_area) := Function.update_idem ..
  refine ⟨_, (block_reaches hrestore hblock).trans (step_reaches hret rfl), rfl, rfl, ?_⟩
  show (⟨Function.update (loadPairs (fun k => area (8 * k)) hostSlots c₁.x) 1 (area 96), area 96, _⟩ :
    HostContext) = _
  rw [hx]
  rfl

/-- A saved context is the context that the vector returns to. -/
theorem callReturned_of_saved {c c' : Cpu SysReg} {base : U64} {area : HostSavedArea} {x : Fin 31 → U64}
    (h : (⟨c'.x, c'.sp, c'.pc⟩ : HostContext) =
      el2_vector_return base (host_save ⟨c.x, c.sp, c.pc⟩ area) x) : CallReturned c c' := by
  obtain ⟨hx, hsp, hpc⟩ := HostContext.mk.injEq .. |>.mp h
  refine ⟨hpc, hsp, ?_⟩
  intro n hn
  rw [hx]
  fin_cases n
  all_goals first | rfl | exact absurd hn (by decide)

/-- The vector does not touch `host_saved_area`. -/
theorem AtHandler.area {k : Fin 16} {c c' : Cpu SysReg} {area : HostSavedArea} (h : AtHandler D k s c c')
    (hsp : D.Stack c.sp) (hlatched : ∀ p, s.current_trapframe = some p → p < D.count)
    (harea : AreaAt addr c.mem area) : AreaAt addr c'.mem area := by
  refine harea.congr ?_
  intro a ha
  have hne : ∀ b, ¬ D.Owns b → a ≠ b := fun b hb he => hb (.inr (.inr (he ▸ ha)))
  exact h.memory a (fun q hq hf => D.area_apart q (hlatched q hq) a ha hf) (fun he => D.latch_area (he ▸ ha))
    (hne _ hsp.x16_free) (hne _ hsp.code_free)

/-- From any slot the vector calls the handler with the syndrome and the code of the slot, after the save
that `el2_vector_common` describes; and when the handler returns, the vector loads the context of
`el2_vector_return`, whatever context the exception was taken from. -/
theorem el2_vectors_return (hI : El2Image addr code) {c : Cpu SysReg} {area : HostSavedArea} (k : Fin 16)
    (hpc : c.pc = addr .el2_vectors + BitVec.ofNat 64 (0x80 * k)) (hsp : D.Stack c.sp)
    (hx : c.x = s.m.x) (hsys : c.sys = s.m.sys) (hmem : D.Holds c.mem s) (harea : AreaAt addr c.mem area) :
    ∃ c₁, Reaches (el2_platform addr s.m) code c c₁ ∧ AtHandler D k s c c₁ ∧
      ∀ c₂, HandlerReturned addr c₁ c₂ →
        ∃ c₃, Reaches (el2_platform addr s.m) code c₂ c₃ ∧ c₃.mem = c₂.mem ∧ c₃.sys = c₂.sys ∧
          (⟨c₃.x, c₃.sp, c₃.pc⟩ : HostContext) = el2_vector_return (addr .host_saved_area) area c₂.x := by
  obtain ⟨c₁, hpath, hcall⟩ := vector_reaches_handler hI k hpc hsp hx hsys hmem
  refine ⟨c₁, hpath, hcall, ?_⟩
  intro c₂ hret
  have harea₂ : AreaAt addr c₂.mem area := (hcall.area hsp hmem.latched harea).congr hret.area
  exact vector_restore_reaches hI D (hret.pc.trans hcall.link) harea₂

theorem vector_codes_slot (e : Exit) : vector_codes e.slot = e.code := by
  cases e <;> rfl

/-- A call of `vcpu_switch_asm` enters the guest; whatever the guest's slice is, the vector calls the
handler in the state that the run of the model has then; and when the handler returns, the vector returns
to the caller of `vcpu_switch_asm`. -/
theorem vcpu_switch_call (hI : El2Image addr code) {c : Cpu SysReg} {p : VcpuPtr} {area : HostSavedArea}
    (hpc : c.pc = addr .vcpu_switch_asm) (hp : p < D.count) (hx0 : c.x 0 = D.frame p) (hsys : c.sys = s.m.sys)
    (hsp : D.Stack c.sp) (hmem : D.Holds c.mem s) (harea : AreaAt addr c.mem area) (site : CallSite) :
    ∃ c₁, Reaches (el2_platform addr s.m) code c c₁ ∧ c₁.pc = (s.vcpu p).arch.tf.elr_el1 ∧
      c₁.x = (entered s p site).st.m.x ∧ c₁.sys = (entered s p site).st.m.sys ∧
      ∀ sl c₂, Taken D (entered s p site) sl c₁ c₂ →
        ∃ c₃, Reaches (el2_platform addr ((entered s p site).exitMachine sl)) code c₂ c₃ ∧
          AtHandler D sl.exit.slot { s with m := (entered s p site).exitMachine sl } c₂ c₃ ∧
          D.Holds c₃.mem ((entered s p site).trapped sl) ∧
          ∀ c₄, HandlerReturned addr c₃ c₄ →
            ∃ c₅, Reaches (el2_platform addr ((entered s p site).exitMachine sl)) code c₄ c₅ ∧
              CallReturned c c₅ ∧ c₅.mem = c₄.mem ∧ c₅.sys = c₄.sys := by
  obtain ⟨c₁, hpath₁, hpc₁, hx₁, hsys₁, hsp₁, harea₁, hout₁⟩ :=
    switch_reaches_guest hI hpc hp hx0 hsys hmem harea
  refine ⟨c₁, hpath₁, hpc₁, hx₁, hsys₁, ?_⟩
  intro sl c₂ htaken
  set t : State := { s with m := (entered s p site).exitMachine sl } with ht
  have hmem₂ : D.Holds c₂.mem t := by
    refine ⟨?_, ?_, hmem.latched⟩
    · intro q hq
      refine (hmem.frames q hq).congr ?_
      intro a ha
      rw [htaken.objects a (.inl ⟨q, hq, ha⟩)]
      exact hout₁ a fun har => D.area_apart q hq a har ha
    · rw [htaken.objects _ (.inr (.inl rfl)), hout₁ _ D.latch_area]
      exact hmem.latch
  have hsp₂ : D.Stack c₂.sp := by
    rw [htaken.sp, hsp₁]
    exact hsp
  obtain ⟨c₃, hpath₃, hcall⟩ := vector_reaches_handler hI (s := t) sl.exit.slot htaken.pc hsp₂ htaken.x
    htaken.sys
    hmem₂
  refine ⟨c₃, hpath₃, hcall, ?_, ?_⟩
  · have hobjects := hcall.objects
    rw [vector_codes_slot] at hobjects
    exact hobjects
  · intro c₄ hret
    have harea₂ : AreaAt addr c₂.mem (host_save ⟨c.x, c.sp, c.pc⟩ area) :=
      harea₁.congr fun a ha => htaken.objects a (.inr (.inr ha))
    have harea₃ := hcall.area hsp₂ hmem.latched harea₂
    obtain ⟨c₅, hpath₅, hmem₅, hsys₅, hctx⟩ :=
      vector_restore_reaches hI D (hret.pc.trans hcall.link) (harea₃.congr hret.area)
    exact ⟨c₅, hpath₅, callReturned_of_saved hctx, hmem₅, hsys₅⟩

end Switch

/-! ## An image -/

def coldAddr : Sym → U64
  | ._start => 0x40000000
  | ._start_1 => 0x4000002c
  | .stack_top => 0x404d7000
  | .el2_main => 0x40006000
  | .el2_vectors => 0x40000800
  | .el2_vector_common => 0x40001000
  | .el2_vector_common_2 => 0x400010b8
  | .el2_exception_common => 0x40002000
  | .vcpu_switch_asm => 0x40003000
  | .host_saved_area => 0x40010000
  | .current_trapframe => 0x40010100
  | .guest_el1_vectors => 0x40004000
  | .guest_el1_sync_common => 0x40004800
  | .guest_el1_sync_common_1 => 0x4000480c
  | .guest_el1_slot k => 0x40004000 + BitVec.ofNat 64 (0x80 * k)

/-- The listings of EL2 at these addresses. -/
def coldProgram : Code SysReg Sym := assemble
  ((List.ofFn fun k : Fin 16 => (0x40000800 + BitVec.ofNat 64 (0x80 * k), slot_code (vector_codes k))) ++
    [(0x40001000, vector_common_code), (0x40003000, vcpu_switch_code)])

theorem coldProgram_image : El2Image coldAddr coldProgram where
  slots := by
    intro k
    fin_cases k <;> exact ⟨rfl, rfl, rfl, trivial⟩
  common := by
    repeat refine ⟨rfl, ?_⟩
    trivial
  common_2 := rfl
  switch := by
    repeat refine ⟨rfl, ?_⟩
    trivial

/-- The frames of two vCPUs, one page behind `host_saved_area`. -/
def coldFrame (p : ℕ) : U64 := 0x40011000 + BitVec.ofNat 64 (0x400 * p)

theorem coldFrame_range {p : ℕ} (hp : p < 2) {a : U64} (h : InSlots (coldFrame p) 44 a) :
    0x40011000 + 0x400 * p ≤ a.toNat ∧ a.toNat < 0x40011160 + 0x400 * p := by
  have hbase : (coldFrame p).toNat = 0x40011000 + 0x400 * p := by
    interval_cases p <;> rfl
  have hrange := h.range (by omega)
  omega

def coldData : El2Data coldAddr where
  count := 2
  frame := coldFrame
  frame_aligned := by decide
  frame_ne_null := by decide
  latch_aligned := by decide
  area_aligned := by decide
  frames_apart := by
    intro p hp q hq hpq a ha hb
    have h₁ := coldFrame_range hp ha
    have h₂ := coldFrame_range hq hb
    omega
  latch_apart := by
    intro p hp h
    have h₁ := coldFrame_range hp h
    have hlatch : (coldAddr .current_trapframe).toNat = 0x40010100 := rfl
    omega
  area_apart := by
    intro p hp a ha hf
    have h₁ := coldFrame_range hp hf
    have hbase : (coldAddr .host_saved_area).toNat = 0x40010000 := rfl
    have h₂ := ha.range (by omega)
    omega
  latch_area := by
    intro h
    have hbase : (coldAddr .host_saved_area).toNat = 0x40010000 := rfl
    have hlatch : (coldAddr .current_trapframe).toNat = 0x40010100 := rfl
    have h₂ := h.range (by omega)
    omega

/-- The frame of vCPU `0` is latched. -/
def coldLatched : State := { bss_clear coldMachine 0x40004000 with current_trapframe := some 0 }

def coldQuadwords : Quadwords := Function.update (fun _ => 0) 0x40010100 0x40011000

theorem coldQuadwords_of_ne {a : U64} (h : a ≠ 0x40010100) : coldQuadwords a = 0 :=
  Function.update_of_ne h _ _

theorem coldHolds : coldData.Holds coldQuadwords coldLatched where
  frames := by
    intro p hp k hk
    have hne : coldFrame p + BitVec.ofNat 64 (8 * k) ≠ 0x40010100 := by
      intro h
      exact coldData.latch_apart p hp ⟨k, hk, h.symm⟩
    refine (coldQuadwords_of_ne hne).trans ?_
    show 0 = Vcpu.cleared.arch.tf.ldr k
    interval_cases k <;> rfl
  latch := rfl
  latched := by
    intro p hp
    cases hp
    decide

theorem coldArea_holds : AreaAt coldAddr coldQuadwords fun _ => 0 := by
  intro k hk
  refine coldQuadwords_of_ne ?_
  intro h
  exact coldData.latch_area ⟨k, hk, h.symm⟩

theorem coldData_free {a : U64} (h : 0x40012000 ≤ a.toNat) : ¬ coldData.Owns a := by
  rintro (⟨p, hp, hf⟩ | rfl | har)
  · have hp' : p < 2 := hp
    have hrange := coldFrame_range hp hf
    omega
  · exact absurd h (by decide)
  · have hbase : (coldAddr .host_saved_area).toNat = 0x40010000 := rfl
    have hrange := har.range (by omega)
    omega

theorem coldStack : coldData.Stack 0x4001ffc0 where
  aligned := by decide
  code_free := coldData_free (by decide)
  x16_free := coldData_free (by decide)

/-- The CPU at `pc` with the pointer `x0`. -/
def coldCpu (pc x0 : U64) : Cpu SysReg where
  x := Function.update coldMachine.x 0 x0
  sp := 0x4001ffc0
  pc := pc
  sys := coldMachine.sys
  mem := coldQuadwords

theorem coldCpu_x (pc : U64) : (coldCpu pc 0).x = coldLatched.m.x := Function.update_eq_self 0 coldMachine.x

/-- A hypercall of vCPU `0`, before anything has been saved in `host_saved_area`. -/
theorem el2_vectors_return_cold : ∃ c₁, Reaches (el2_platform coldAddr coldMachine) coldProgram
    (coldCpu 0x40000c00 0) c₁ ∧ AtHandler coldData 8 coldLatched (coldCpu 0x40000c00 0) c₁ := by
  obtain ⟨c₁, hpath, hcall, -⟩ := el2_vectors_return (D := coldData) (s := coldLatched)
    (c := coldCpu 0x40000c00 0) coldProgram_image 8 (by decide) coldStack (coldCpu_x _) rfl coldHolds
    coldArea_holds
  exact ⟨c₁, hpath, hcall⟩

/-- The guest of vCPU `0` traps at once, and the call returns. -/
theorem vcpu_switch_call_cold : ∃ c₂ c₃ c₄ c₅,
    Reaches (el2_platform coldAddr ((entered coldLatched 0 .loop).exitMachine (coldSlice 0x58000060)))
      coldProgram c₂ c₃ ∧ HandlerReturned coldAddr c₃ c₄ ∧
    Reaches (el2_platform coldAddr ((entered coldLatched 0 .loop).exitMachine (coldSlice 0x58000060)))
      coldProgram c₄ c₅ ∧ CallReturned (coldCpu 0x40003000 0x40011000) c₅ := by
  obtain ⟨c₁, -, -, -, -, hcall⟩ := vcpu_switch_call (D := coldData) (s := coldLatched)
    (c := coldCpu 0x40003000 0x40011000) (p := 0) coldProgram_image rfl (by decide) rfl rfl coldStack
    coldHolds coldArea_holds .loop
  obtain ⟨c₃, hpath₃, -, -, hreturn⟩ := hcall (coldSlice 0x58000060)
    { c₁ with
      pc := 0x40000c00
      x := ((entered coldLatched 0 .loop).exitMachine (coldSlice 0x58000060)).x
      sys := ((entered coldLatched 0 .loop).exitMachine (coldSlice 0x58000060)).sys }
    ⟨rfl, rfl, rfl, rfl, fun _ _ => rfl⟩
  have hret : HandlerReturned coldAddr c₃ { c₃ with pc := c₃.x 30 } := ⟨rfl, fun _ _ => rfl⟩
  obtain ⟨c₅, hpath₅, hcalled, -⟩ := hreturn _ hret
  exact ⟨_, c₃, _, c₅, hpath₃, hret, hpath₅, hcalled⟩

end Schism
