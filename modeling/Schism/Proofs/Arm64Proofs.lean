import Schism.Arm64

/-!
# Rules for straight-line code and for memory

A listing that control passes through is executed as a block (`block_reaches`). Blocks that save or load
registers are described by what they do to the quadwords at a base address.
-/

namespace Schism.Arm64

section Block

variable {R S : Type} [DecidableEq R] {P : Platform R S} {code : Code R S}

omit [DecidableEq R] in
theorem store_setPc (c : Cpu R) (a v pc : Word) :
    ({ c with pc := pc } : Cpu R).store a v = (c.store a v).map fun c' => { c' with pc := pc } := by
  simp only [Cpu.store]
  split <;> rfl

/-- Where the code lies does not matter for what an instruction does. -/
theorem exec_setPc (i : Instr R S) (c : Cpu R) (pc : Word) :
    i.exec P { c with pc := pc } = (i.exec P c).map fun c' => { c' with pc := pc } := by
  have hbase : ∀ n, ({ c with pc := pc } : Cpu R).base n = c.base n := fun n => by cases n <;> rfl
  have hload : ∀ a, ({ c with pc := pc } : Cpu R).load a = c.load a := fun _ => rfl
  cases i with
  | str | stp | push | strzLo12 =>
    simp only [Instr.exec, hbase, store_setPc, Option.bind_eq_bind, Option.map_bind, Option.bind_map,
      Function.comp_def, Option.pure_def, Option.map_some]
  | ldr | ldp | ldrLo12 =>
    simp only [Instr.exec, hbase, hload, Option.bind_eq_bind, Option.map_bind, Function.comp_def,
      Option.pure_def, Option.map_some, Cpu.setX]
  | _ => rfl

theorem step_of_exec {i : Instr R S} {c c' : Cpu R} (h : i.exec P c = some c') :
    i.step P c = some { c' with pc := c.pc + 4 } := by
  cases i with
  | cbz | b | bl | ret | eret | wfi | hvc => cases h
  | _ => simp only [Instr.step, h, Option.map_some]

theorem block_cons (i : Instr R S) (is : List (Instr R S)) (c : Cpu R) :
    block P (i :: is) c = (i.exec P c).bind (block P is) := rfl

theorem block_step {i : Instr R S} {is : List (Instr R S)} {c c₁ c₂ : Cpu R} (h₁ : i.exec P c = some c₁)
    (h₂ : block P is c₁ = some c₂) : block P (i :: is) c = some c₂ := by
  rw [block_cons, h₁]
  exact h₂

theorem block_append (is js : List (Instr R S)) (c : Cpu R) :
    block P (is ++ js) c = (block P is c).bind (block P js) := List.foldlM_append

/-- Blocks are executed one after the other. -/
theorem block_trans {is js : List (Instr R S)} {c c₁ c₂ : Cpu R} (h₁ : block P is c = some c₁)
    (h₂ : block P js c₁ = some c₂) : block P (is ++ js) c = some c₂ := by
  rw [block_append, h₁]
  exact h₂

theorem block_setPc (is : List (Instr R S)) (c : Cpu R) (a : Word) :
    block P is { c with pc := a } = (block P is c).map fun c' => { c' with pc := a } := by
  induction is generalizing c with
  | nil => rfl
  | cons i is ih =>
    rw [block_cons, block_cons, exec_setPc]
    cases i.exec P c with
    | none => rfl
    | some c' => exact ih c'

/-- The address behind one instruction and `n` more. -/
theorem behind_succ (a : Word) (n : ℕ) :
    a + 4 + BitVec.ofNat 64 (4 * n) = a + BitVec.ofNat 64 (4 * (n + 1)) := by
  rw [BitVec.add_assoc, Nat.mul_add, Nat.mul_one, Nat.add_comm, BitVec.ofNat_add]
  rfl

theorem behind_add (a : Word) (m n : ℕ) :
    a + BitVec.ofNat 64 (4 * m) + BitVec.ofNat 64 (4 * n) = a + BitVec.ofNat 64 (4 * (m + n)) := by
  rw [BitVec.add_assoc, Nat.mul_add, BitVec.ofNat_add]

omit [DecidableEq R] in
theorem placed_append {is js : List (Instr R S)} {a : Word} : Placed code a (is ++ js) ↔
    Placed code a is ∧ Placed code (a + BitVec.ofNat 64 (4 * is.length)) js := by
  induction is generalizing a with
  | nil => simp [Placed]
  | cons i is ih => rw [List.cons_append, Placed, Placed, ih, behind_succ, List.length_cons, and_assoc]

/-- A block is executed from its first instruction to the one behind its last. -/
theorem block_reaches {is : List (Instr R S)} {c c' : Cpu R} (hcode : Placed code c.pc is)
    (h : block P is c = some c') :
    Reaches P code c { c' with pc := c.pc + BitVec.ofNat 64 (4 * is.length) } := by
  induction is generalizing c c' with
  | nil =>
    obtain rfl : c = c' := Option.some.inj h
    have hpc : c.pc + BitVec.ofNat 64 (4 * ([] : List (Instr R S)).length) = c.pc := BitVec.add_zero _
    rw [hpc]
  | cons i is ih =>
    obtain ⟨hi, hrest⟩ := hcode
    rw [block_cons] at h
    obtain ⟨c₁, h₁, hblock⟩ := Option.bind_eq_some_iff.mp h
    have hstep : Step P code c { c₁ with pc := c.pc + 4 } := ⟨i, hi, step_of_exec h₁⟩
    have hnext : block P is { c₁ with pc := c.pc + 4 } = some { c' with pc := c.pc + 4 } := by
      rw [block_setPc, hblock, Option.map_some]
    have htail := ih hrest hnext
    rw [behind_succ] at htail
    exact .head hstep htail

theorem step_reaches {i : Instr R S} {c c' : Cpu R} (hcode : code c.pc = some i)
    (h : i.step P c = some c') : Reaches P code c c' := .single ⟨i, hcode, h⟩

end Block

/-! ## Quadwords -/

section Quads

variable {mem : Word → Word} {base : Word} {n : ℕ} {f : ℕ → Word}

theorem aligned_slot (hb : Aligned base) (k : ℕ) : Aligned (base + BitVec.ofNat 64 (8 * k)) := by
  unfold Aligned at hb ⊢
  rw [BitVec.toNat_add, BitVec.toNat_ofNat]
  omega

theorem slot_inj {j k : ℕ} (hj : j < 2 ^ 61) (hk : k < 2 ^ 61)
    (h : base + BitVec.ofNat 64 (8 * j) = base + BitVec.ofNat 64 (8 * k)) : j = k := by
  have hoff := congrArg BitVec.toNat (add_left_cancel h)
  rw [BitVec.toNat_ofNat, BitVec.toNat_ofNat] at hoff
  omega

/-- An aligned address is that of its page and the offset in it. -/
theorem page_add_lo12 (a : Word) : page a + lo12 a = a := by
  have hsum := Nat.div_add_mod' a.toNat 0x1000
  have hlt := a.isLt
  refine BitVec.eq_of_toNat_eq ?_
  rw [page, lo12, BitVec.toNat_add, BitVec.toNat_ofNat, BitVec.toNat_ofNat]
  omega

theorem inSlots_slot {k : ℕ} (hk : k < n) : InSlots base n (base + BitVec.ofNat 64 (8 * k)) := ⟨k, hk, rfl⟩

/-- Quadwords that do not wrap around lie between the first and the last one. -/
theorem InSlots.range {a : Word} (h : InSlots base n a) (hn : base.toNat + 8 * n ≤ 2 ^ 64) :
    base.toNat ≤ a.toNat ∧ a.toNat < base.toNat + 8 * n := by
  obtain ⟨k, hk, rfl⟩ := h
  rw [BitVec.toNat_add, BitVec.toNat_ofNat]
  omega

theorem Quads.congr {mem' : Word → Word} (hq : Quads mem base n f)
    (h : ∀ a, InSlots base n a → mem' a = mem a) : Quads mem' base n f := by
  intro k hk
  rw [h _ (inSlots_slot hk)]
  exact hq k hk

/-- A store outside of the quadwords leaves them alone. -/
theorem Quads.update_outside (hq : Quads mem base n f) {a : Word} (ha : ¬ InSlots base n a) (v : Word) :
    Quads (Function.update mem a v) base n f := by
  refine hq.congr ?_
  intro b hb
  have hne : b ≠ a := fun h => ha (h ▸ hb)
  exact Function.update_of_ne hne v mem

theorem Quads.update (hn : n ≤ 2 ^ 61) (hq : Quads mem base n f) {k : ℕ} (hk : k < n) (v : Word) :
    Quads (Function.update mem (base + BitVec.ofNat 64 (8 * k)) v) base n (Function.update f k v) := by
  intro j hj
  by_cases hjk : j = k
  · rw [hjk, Function.update_self, Function.update_self]
  · have hne : base + BitVec.ofNat 64 (8 * j) ≠ base + BitVec.ofNat 64 (8 * k) :=
      fun h => hjk (slot_inj (by omega) (by omega) h)
    rw [Function.update_of_ne hne, Function.update_of_ne hjk]
    exact hq j hj

theorem storePair_slot (mem : Word → Word) (base : Word) (k : ℕ) (v w : Word) :
    storePair mem (base + BitVec.ofNat 64 (8 * k)) v w =
      Function.update (Function.update mem (base + BitVec.ofNat 64 (8 * k)) v)
        (base + BitVec.ofNat 64 (8 * (k + 1))) w := by
  rw [storePair, BitVec.add_assoc, Nat.mul_add, BitVec.ofNat_add]
  rfl

theorem Quads.storePair (hn : n ≤ 2 ^ 61) (hq : Quads mem base n f) {k : ℕ} (hk : k + 1 < n) (v w : Word) :
    Quads (storePair mem (base + BitVec.ofNat 64 (8 * k)) v w) base n
      (Function.update (Function.update f k v) (k + 1) w) := by
  rw [storePair_slot]
  exact (hq.update hn (by omega) v).update hn hk w

theorem storePair_outside {k : ℕ} (hk : k + 1 < n) {a : Word} (ha : ¬ InSlots base n a) (v w : Word) :
    Arm64.storePair mem (base + BitVec.ofNat 64 (8 * k)) v w a = mem a := by
  have h₁ : a ≠ base + BitVec.ofNat 64 (8 * (k + 1)) := fun h => ha ⟨k + 1, hk, h⟩
  have h₂ : a ≠ base + BitVec.ofNat 64 (8 * k) := fun h => ha ⟨k, by omega, h⟩
  rw [storePair_slot, Function.update_of_ne h₁, Function.update_of_ne h₂]

end Quads

/-! ## Saving and loading registers -/

section Registers

variable {R S : Type} [DecidableEq R] {P : Platform R S} {c : Cpu R} {b : Base} {p : Word} {n : ℕ}
  {f : ℕ → Word}

theorem exec_str (hp : Aligned p) (hb : c.base b = some p) (t : Fin 31) (k : ℕ) :
    (Instr.str t b (8 * k)).exec P c =
      some { c with mem := Function.update c.mem (p + BitVec.ofNat 64 (8 * k)) (c.x t) } := by
  simp only [Instr.exec, hb, Option.bind_eq_bind, Option.bind_some, Cpu.store, if_pos (aligned_slot hp k)]

theorem exec_stp (hp : Aligned p) (hb : c.base b = some p) (t u : Fin 31) (k : ℕ) :
    (Instr.stp t u b (8 * k)).exec P c =
      some { c with mem := storePair c.mem (p + BitVec.ofNat 64 (8 * k)) (c.x t) (c.x u) } := by
  have hnext : 8 * k + 8 = 8 * (k + 1) := rfl
  simp only [Instr.exec, hb, Option.bind_eq_bind, Option.bind_some, Cpu.store, if_pos (aligned_slot hp k),
    hnext, if_pos (aligned_slot hp (k + 1)), storePair_slot]

theorem exec_ldr (hp : Aligned p) (hb : c.base b = some p) (hq : Quads c.mem p n f) (t : Fin 31) {k : ℕ}
    (hk : k < n) : (Instr.ldr t b (8 * k)).exec P c = some (c.setX t (f k)) := by
  simp only [Instr.exec, hb, Option.bind_eq_bind, Option.bind_some, Cpu.load, if_pos (aligned_slot hp k),
    hq k hk, Option.pure_def]

theorem exec_ldp (hp : Aligned p) (hb : c.base b = some p) (hq : Quads c.mem p n f) (t u : Fin 31) {k : ℕ}
    (hk : k + 1 < n) :
    (Instr.ldp t u b (8 * k)).exec P c = some ((c.setX t (f k)).setX u (f (k + 1))) := by
  have hnext : 8 * k + 8 = 8 * (k + 1) := rfl
  simp only [Instr.exec, hb, Option.bind_eq_bind, Option.bind_some, Cpu.load, if_pos (aligned_slot hp k),
    hnext, if_pos (aligned_slot hp (k + 1)), hq k (by omega), hq (k + 1) hk, Option.pure_def]

theorem aligned_of_stack {sp : Word} (h : sp.toNat % 16 = 0) : Aligned sp := by
  unfold Aligned
  omega

theorem stack_sub {sp : Word} (h : sp.toNat % 16 = 0) : (sp - 16).toNat % 16 = 0 := by
  have hlt := sp.isLt
  rw [BitVec.toNat_sub]
  have h16 : (16 : Word).toNat = 16 := rfl
  rw [h16]
  omega

theorem stack_add {sp : Word} (h : sp.toNat % 16 = 0) : (sp + 16).toNat % 16 = 0 := by
  rw [BitVec.toNat_add]
  have h16 : (16 : Word).toNat = 16 := rfl
  rw [h16]
  omega

theorem exec_ldr_sp (hsp : c.sp.toNat % 16 = 0) (t : Fin 31) (k : ℕ) :
    (Instr.ldr t .sp (8 * k)).exec P c = some (c.setX t (c.mem (c.sp + BitVec.ofNat 64 (8 * k)))) := by
  have hbase : c.base .sp = some c.sp := if_pos hsp
  have hq : Quads c.mem c.sp (k + 1) fun k => c.mem (c.sp + BitVec.ofNat 64 (8 * k)) := fun _ _ => rfl
  exact exec_ldr (aligned_of_stack hsp) hbase hq t (Nat.lt_succ_self k)

theorem exec_push (hsp : c.sp.toNat % 16 = 0) (t : Fin 31) : (Instr.push t 16).exec P c =
    some { c with mem := Function.update c.mem (c.sp - 16) (c.x t), sp := c.sp - 16 } := by
  have hal : Aligned (c.sp - 16) := aligned_of_stack (stack_sub hsp)
  have h16 : BitVec.ofNat 64 16 = 16 := rfl
  simp only [Instr.exec, Cpu.base, if_pos hsp, Option.bind_eq_bind, Option.bind_some, h16, Cpu.store,
    if_pos hal, Option.pure_def]

theorem exec_addLo12 {sym : S} (t m : Fin 31) (hm : c.x m = page (P.addr sym)) :
    (Instr.addLo12 t m sym).exec P c = some (c.setX t (P.addr sym)) := by
  simp only [Instr.exec, hm, page_add_lo12]

theorem exec_ldrLo12 {sym : S} (ha : Aligned (P.addr sym)) (t m : Fin 31)
    (hm : c.x m = page (P.addr sym)) :
    (Instr.ldrLo12 t m sym).exec P c = some (c.setX t (c.mem (P.addr sym))) := by
  simp only [Instr.exec, hm, page_add_lo12, Cpu.load, if_pos ha, Option.bind_eq_bind, Option.bind_some,
    Option.pure_def]

theorem exec_strzLo12 {sym : S} (ha : Aligned (P.addr sym)) (m : Fin 31)
    (hm : c.x m = page (P.addr sym)) : (Instr.strzLo12 m sym).exec P c =
      some { c with mem := Function.update c.mem (P.addr sym) 0 } := by
  simp only [Instr.exec, hm, page_add_lo12, Cpu.store, if_pos ha]

/-- A run of `stp` through one base register saves the registers into the quadwords at the base, and
touches nothing else. -/
theorem stp_pairs (hn : n ≤ 2 ^ 61) (hp : Aligned p) (hb : c.base b = some p)
    (ps : List (Fin 31 × Fin 31 × ℕ)) (hps : ∀ i ∈ ps, i.2.2 + 1 < n) (hq : Quads c.mem p n f) :
    ∃ mem, block P (ps.map fun i => .stp i.1 i.2.1 b (8 * i.2.2)) c = some { c with mem := mem } ∧
      Quads mem p n (savePairs c.x ps f) ∧ ∀ a, ¬ InSlots p n a → mem a = c.mem a := by
  induction ps generalizing c f with
  | nil => exact ⟨c.mem, rfl, hq, fun _ _ => rfl⟩
  | cons i ps ih =>
    have hi := hps i List.mem_cons_self
    let c₁ : Cpu R :=
      { c with mem := storePair c.mem (p + BitVec.ofNat 64 (8 * i.2.2)) (c.x i.1) (c.x i.2.1) }
    have hb₁ : c₁.base b = some p := by
      rw [← hb]
      cases b <;> rfl
    obtain ⟨mem, hblock, hquads, hout⟩ :=
      ih (c := c₁) hb₁ (fun j hj => hps j (List.mem_cons_of_mem i hj)) (hq.storePair hn hi _ _)
    refine ⟨mem, ?_, hquads, ?_⟩
    · rw [List.map_cons, block_cons, exec_stp hp hb]
      exact hblock
    · intro a ha
      rw [hout a ha]
      exact storePair_outside hi ha _ _

/-- A run of `ldp` through a base register that it does not load. -/
theorem ldp_pairs {r : Fin 31} (hp : Aligned (c.x r)) (ps : List (Fin 31 × Fin 31 × ℕ))
    (hps : ∀ i ∈ ps, i.1 ≠ r ∧ i.2.1 ≠ r ∧ i.2.2 + 1 < n) (hq : Quads c.mem (c.x r) n f) :
    block P (ps.map fun i => .ldp i.1 i.2.1 (.x r) (8 * i.2.2)) c =
      some { c with x := loadPairs f ps c.x } := by
  induction ps generalizing c with
  | nil => rfl
  | cons i ps ih =>
    obtain ⟨h₁, h₂, hi⟩ := hps i List.mem_cons_self
    let c₁ : Cpu R := (c.setX i.1 (f i.2.2)).setX i.2.1 (f (i.2.2 + 1))
    have hr : c₁.x r = c.x r := by
      show Function.update (Function.update c.x _ _) _ _ r = _
      rw [Function.update_of_ne h₂.symm, Function.update_of_ne h₁.symm]
    rw [List.map_cons, block_cons, exec_ldp hp rfl hq i.1 i.2.1 hi]
    refine ih (c := c₁) ?_ (fun j hj => hps j (List.mem_cons_of_mem i hj)) ?_
    · rw [hr]
      exact hp
    · rw [hr]
      exact hq

end Registers

end Schism.Arm64
