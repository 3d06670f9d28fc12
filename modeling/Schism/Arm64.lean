import Mathlib

/-!
# A fragment of the A64 instruction set

The instructions that low-level entry and exit code is made of: loads and stores of quadwords, address
arithmetic, moves to and from system registers, and the transfers of control. The system registers `R` and
the symbols `S` that a linker resolves are parameters.

Memory is a map from the addresses of quadwords. An access that is not aligned, or that goes through a
misaligned stack pointer, has no result.
-/

namespace Schism.Arm64

abbrev Word := BitVec 64

/-- The base register of an address. -/
inductive Base where
  | x (n : Fin 31)
  | sp
deriving DecidableEq

inductive Instr (R S : Type) where
  | ldr (t : Fin 31) (n : Base) (off : ℕ)
  | ldp (t u : Fin 31) (n : Base) (off : ℕ)
  | str (t : Fin 31) (n : Base) (off : ℕ)
  | stp (t u : Fin 31) (n : Base) (off : ℕ)
  /-- `str xt, [sp, #-off]!`. -/
  | push (t : Fin 31) (off : ℕ)
  /-- `ldr xt, =sym`: the address comes from the literal pool. -/
  | ldrEq (t : Fin 31) (sym : S)
  | adrp (t : Fin 31) (sym : S)
  /-- `add xt, xn, :lo12:sym`. -/
  | addLo12 (t n : Fin 31) (sym : S)
  /-- `ldr xt, [xn, :lo12:sym]`. -/
  | ldrLo12 (t n : Fin 31) (sym : S)
  /-- `str xzr, [xn, :lo12:sym]`. -/
  | strzLo12 (n : Fin 31) (sym : S)
  | mov (t : Fin 31) (v : Word)
  /-- `mov xt, sp`. -/
  | movFromSp (t : Fin 31)
  /-- `mov sp, xn`. -/
  | movToSp (n : Fin 31)
  /-- `add sp, sp, #imm`. -/
  | addSp (imm : ℕ)
  | add (t n m : Fin 31)
  | sub (t n m : Fin 31)
  /-- `and xt, xn, #v`. -/
  | and (t n : Fin 31) (v : Word)
  | mrs (t : Fin 31) (r : R)
  | msr (r : R) (t : Fin 31)
  /-- `msr r, #v`, for a field of the processor state. -/
  | msrImm (r : R) (v : Word)
  | isb
  | cbz (t : Fin 31) (sym : S)
  | b (sym : S)
  | bl (sym : S)
  | ret
  | eret
  | wfi
  | hvc (imm : ℕ)

/-- The registers of one exception level and memory. -/
structure Cpu (R : Type) where
  x : Fin 31 → Word
  sp : Word
  pc : Word
  sys : R → Word
  mem : Word → Word

/-- What the code depends on besides the state. -/
structure Platform (R S : Type) where
  /-- Where the linker has put each symbol. -/
  addr : S → Word
  /-- What `mrs` reads, given the contents of the registers. -/
  read : (R → Word) → R → Word
  /-- The register that `eret` returns through. -/
  elr : R

/-- The address of a quadword. -/
def Aligned (a : Word) : Prop := a.toNat % 8 = 0

instance (a : Word) : Decidable (Aligned a) := inferInstanceAs (Decidable (_ = _))

/-- The page of an address, which `adrp` yields. -/
def page (a : Word) : Word := BitVec.ofNat 64 (a.toNat / 0x1000 * 0x1000)

/-- The offset of an address in its page. -/
def lo12 (a : Word) : Word := BitVec.ofNat 64 (a.toNat % 0x1000)

/-! ## Execution -/

namespace Cpu

variable {R : Type}

def setX (c : Cpu R) (t : Fin 31) (v : Word) : Cpu R := { c with x := Function.update c.x t v }

@[simp] theorem setX_self (c : Cpu R) (t : Fin 31) (v : Word) : (c.setX t v).x t = v := by simp [setX]

theorem setX_of_ne (c : Cpu R) {t n : Fin 31} (h : n ≠ t) (v : Word) : (c.setX t v).x n = c.x n := by
  simp [setX, h]

/-- The value of a base register; `none` is a stack pointer that is not aligned. -/
def base (c : Cpu R) : Base → Option Word
  | .x n => some (c.x n)
  | .sp => if c.sp.toNat % 16 = 0 then some c.sp else none

def load (c : Cpu R) (a : Word) : Option Word := if Aligned a then some (c.mem a) else none

def store (c : Cpu R) (a v : Word) : Option (Cpu R) :=
  if Aligned a then some { c with mem := Function.update c.mem a v } else none

end Cpu

section Exec

variable {R S : Type} [DecidableEq R] (P : Platform R S)

/-- The effect of an instruction that control passes through; `none` for the others. -/
def Instr.exec (c : Cpu R) : Instr R S → Option (Cpu R)
  | .ldr t n off => do
    let a ← c.base n
    let v ← c.load (a + BitVec.ofNat 64 off)
    pure (c.setX t v)
  | .ldp t u n off => do
    let a ← c.base n
    let v ← c.load (a + BitVec.ofNat 64 off)
    let w ← c.load (a + BitVec.ofNat 64 (off + 8))
    pure ((c.setX t v).setX u w)
  | .str t n off => do
    let a ← c.base n
    c.store (a + BitVec.ofNat 64 off) (c.x t)
  | .stp t u n off => do
    let a ← c.base n
    let c' ← c.store (a + BitVec.ofNat 64 off) (c.x t)
    c'.store (a + BitVec.ofNat 64 (off + 8)) (c.x u)
  | .push t off => do
    let a ← c.base .sp
    let c' ← c.store (a - BitVec.ofNat 64 off) (c.x t)
    pure { c' with sp := a - BitVec.ofNat 64 off }
  | .ldrEq t sym => some (c.setX t (P.addr sym))
  | .adrp t sym => some (c.setX t (page (P.addr sym)))
  | .addLo12 t n sym => some (c.setX t (c.x n + lo12 (P.addr sym)))
  | .ldrLo12 t n sym => do
    let v ← c.load (c.x n + lo12 (P.addr sym))
    pure (c.setX t v)
  | .strzLo12 n sym => c.store (c.x n + lo12 (P.addr sym)) 0
  | .mov t v => some (c.setX t v)
  | .movFromSp t => some (c.setX t c.sp)
  | .movToSp n => some { c with sp := c.x n }
  | .addSp imm => some { c with sp := c.sp + BitVec.ofNat 64 imm }
  | .add t n m => some (c.setX t (c.x n + c.x m))
  | .sub t n m => some (c.setX t (c.x n - c.x m))
  | .and t n v => some (c.setX t (c.x n &&& v))
  | .mrs t r => some (c.setX t (P.read c.sys r))
  | .msr r t => some { c with sys := Function.update c.sys r (c.x t) }
  | .msrImm r v => some { c with sys := Function.update c.sys r v }
  | .isb => some c
  | .cbz _ _ | .b _ | .bl _ | .ret | .eret | .wfi | .hvc _ => none

/-- One instruction. A `wfi` may last any time, and a `hvc` leaves the exception level. -/
def Instr.step (c : Cpu R) : Instr R S → Option (Cpu R)
  | .cbz t sym => some { c with pc := if c.x t = 0 then P.addr sym else c.pc + 4 }
  | .b sym => some { c with pc := P.addr sym }
  | .bl sym => some { c.setX 30 (c.pc + 4) with pc := P.addr sym }
  | .ret => some { c with pc := c.x 30 }
  | .eret => some { c with pc := c.sys P.elr }
  | .wfi => some { c with pc := c.pc + 4 }
  | .hvc _ => none
  | i => (i.exec P c).map fun c' => { c' with pc := c.pc + 4 }

/-- A sequence of instructions that control passes through. -/
def block (is : List (Instr R S)) (c : Cpu R) : Option (Cpu R) := is.foldlM (fun c i => i.exec P c) c

/-- The instruction at each address. -/
abbrev Code (R S : Type) := Word → Option (Instr R S)

/-- The listing lies at `a`. -/
def Placed (code : Code R S) : Word → List (Instr R S) → Prop
  | _, [] => True
  | a, i :: is => code a = some i ∧ Placed code (a + 4) is

/-- The listings at their addresses. -/
def assemble (listings : List (Word × List (Instr R S))) : Code R S := fun a =>
  listings.findSome? fun l =>
    if (a - l.1).toNat % 4 = 0 then l.2[(a - l.1).toNat / 4]? else none

def Step (code : Code R S) (c c' : Cpu R) : Prop := ∃ i, code c.pc = some i ∧ i.step P c = some c'

/-- `c'` comes after `c`. -/
abbrev Reaches (code : Code R S) : Cpu R → Cpu R → Prop := Relation.ReflTransGen (Step P code)

end Exec

/-! ## Memory -/

/-- Two quadwords from `a` on. -/
def storePair (mem : Word → Word) (a v w : Word) : Word → Word :=
  Function.update (Function.update mem a v) (a + 8) w

/-- `a` is one of the `n` quadwords from `base` on. -/
def InSlots (base : Word) (n : ℕ) (a : Word) : Prop := ∃ k < n, a = base + BitVec.ofNat 64 (8 * k)

/-- The `n` quadwords from `base` on are `f`. -/
def Quads (mem : Word → Word) (base : Word) (n : ℕ) (f : ℕ → Word) : Prop :=
  ∀ k < n, mem (base + BitVec.ofNat 64 (8 * k)) = f k

/-- The stores of the registers `x` in pairs, each pair with its first quadword. -/
def savePairs (x : Fin 31 → Word) (ps : List (Fin 31 × Fin 31 × ℕ)) (f : ℕ → Word) : ℕ → Word :=
  ps.foldl (fun f i => Function.update (Function.update f i.2.2 (x i.1)) (i.2.2 + 1) (x i.2.1)) f

/-- The loads of registers in pairs. -/
def loadPairs (f : ℕ → Word) (ps : List (Fin 31 × Fin 31 × ℕ)) (x : Fin 31 → Word) : Fin 31 → Word :=
  ps.foldl (fun x i => Function.update (Function.update x i.1 (f i.2.2)) i.2.1 (f (i.2.2 + 1))) x

end Schism.Arm64
