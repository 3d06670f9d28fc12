import Mathlib

/-!
# Three-level page tables allocated from static pools

A builder owns a root table, a pool of second-level and a pool of third-level tables. Next to every
hardware descriptor it keeps a software pointer to the child table; tables are taken from the pools
when they are first needed and never given back before a reset. Index, descriptor and address types
are arbitrary. `none` is an exhausted pool.

`walk` is the hardware's side: it follows the descriptors through memory and knows nothing of the
pointers.
-/

namespace Schism.PageTables

universe u v w

variable {ι : Type u} {D : Type v} {A : Type w} {L : Type*}

/-- The memory of a builder. A pool element is named by its number, a pointer that may be `NULL` is an
`Option`. -/
structure Tables (ι : Type u) (D : Type v) where
  l1 : ι → D
  l1Child : ι → Option ℕ
  l2 : ℕ → ι → D
  l2Child : ℕ → ι → Option ℕ
  l3 : ℕ → ι → D
  l2Used : ℕ
  l3Used : ℕ

/-- The static data of a builder: pool sizes, table addresses and descriptors. -/
structure Pools (D : Type v) (A : Type w) where
  n2 : ℕ
  n3 : ℕ
  root : A
  addr2 : ℕ → A
  addr3 : ℕ → A
  /-- The descriptor of an unused entry. -/
  empty : D
  /-- The descriptor of a child table. -/
  link : A → D

/-- The path to a page: one index for each level. -/
abbrev Path (ι : Type u) := ι × ι × ι

/-! ## Building -/

section Build

variable [DecidableEq ι] (c : Pools D A)

/-- Clear the root table and release both pools, whose contents stay as they are. -/
def reset (t : Tables ι D) : Tables ι D :=
  { t with l1 := fun _ => c.empty, l1Child := fun _ => none, l2Used := 0, l3Used := 0 }

def allocL2 (t : Tables ι D) : Option (ℕ × Tables ι D) :=
  if c.n2 ≤ t.l2Used then none
  else some (t.l2Used, { t with
    l2 := Function.update t.l2 t.l2Used fun _ => c.empty
    l2Child := Function.update t.l2Child t.l2Used fun _ => none
    l2Used := t.l2Used + 1 })

def allocL3 (t : Tables ι D) : Option (ℕ × Tables ι D) :=
  if c.n3 ≤ t.l3Used then none
  else some (t.l3Used, { t with
    l3 := Function.update t.l3 t.l3Used fun _ => c.empty
    l3Used := t.l3Used + 1 })

/-- The second-level table for `i`, allocated if need be. -/
def ensureL2 (i : ι) (t : Tables ι D) : Option (ℕ × Tables ι D) :=
  match t.l1Child i with
  | some k => some (k, t)
  | none =>
    (allocL2 c t).map fun (k, t) => (k, { t with
      l1Child := Function.update t.l1Child i (some k)
      l1 := Function.update t.l1 i (c.link (c.addr2 k)) })

/-- The third-level table for entry `j` of the second-level table `k`, allocated if need be. -/
def ensureL3 (k : ℕ) (j : ι) (t : Tables ι D) : Option (ℕ × Tables ι D) :=
  match t.l2Child k j with
  | some m => some (m, t)
  | none =>
    (allocL3 c t).map fun (m, t) => (m, { t with
      l2Child := Function.update t.l2Child k (Function.update (t.l2Child k) j (some m))
      l2 := Function.update t.l2 k (Function.update (t.l2 k) j (c.link (c.addr3 m))) })

/-- Write entry `l` of the third-level table `m`. -/
def writeL3 (m : ℕ) (l : ι) (d : D) (t : Tables ι D) : Tables ι D :=
  { t with l3 := Function.update t.l3 m (Function.update (t.l3 m) l d) }

/-- Write the descriptor `d` of the page `p`. -/
def mapPage (p : Path ι) (d : D) (t : Tables ι D) : Option (Tables ι D) := do
  let (k, t) ← ensureL2 c p.1 t
  let (m, t) ← ensureL3 c k p.2.1 t
  pure (writeL3 m p.2.2 d t)

/-- Write a sequence of pages. -/
def mapPages (ps : List (Path ι × D)) (t : Tables ι D) : Option (Tables ι D) :=
  ps.foldlM (fun t p => mapPage c p.1 p.2 t) t

end Build

/-! ## The contents -/

/-- The third-level table that covers entry `j` of the second-level table of `i`. -/
def Tables.child (t : Tables ι D) (i j : ι) : Option ℕ := (t.l1Child i).bind fun k => t.l2Child k j

/-- The descriptor of a page, by the pointers. -/
def Tables.entry (c : Pools D A) (t : Tables ι D) (p : Path ι) : D :=
  match t.child p.1 p.2.1 with
  | none => c.empty
  | some m => t.l3 m p.2.2

/-! ## The hardware walk -/

/-- What a descriptor means at its level. -/
inductive Desc (A : Type w) (L : Type*) where
  | invalid
  | leaf (l : L)
  | table (a : A)

/-- The meaning of a last-level descriptor: a page or nothing. -/
def Desc.page : Desc A L → Option L
  | .leaf l => some l
  | _ => none

/-- The table at an address; addresses outside the builder's tables hold `other`. -/
def Tables.read [DecidableEq A] (c : Pools D A) (t : Tables ι D) (other : A → ι → D) (a : A) : ι → D :=
  if a = c.root then t.l1
  else match (List.range c.n2).find? fun k => c.addr2 k = a with
    | some k => t.l2 k
    | none => match (List.range c.n3).find? fun k => c.addr3 k = a with
      | some k => t.l3 k
      | none => other a

/-- The walk from the table at `root`; a table descriptor at the last level is invalid. -/
def walk (decode : ℕ → D → Desc A L) (mem : A → ι → D) (root : A) (p : Path ι) : Option L :=
  match decode 1 (mem root p.1) with
  | .invalid => none
  | .leaf l => some l
  | .table a =>
    match decode 2 (mem a p.2.1) with
    | .invalid => none
    | .leaf l => some l
    | .table a => (decode 3 (mem a p.2.2)).page

/-! ## Loops over pages -/

/-- `for (cur = start; cur < stop; cur += stride)` over machine words, with a body that may fail.
`none` is a failed body or a loop that is still running after `fuel` tests of its condition. -/
def strideLoop {w : ℕ} {σ : Type*} (body : BitVec w → σ → Option σ) (stride stop : BitVec w) :
    ℕ → BitVec w → σ → Option σ
  | 0, _, _ => none
  | fuel + 1, cur, s =>
    if cur < stop then (body cur s).bind (strideLoop body stride stop fuel (cur + stride))
    else some s

end Schism.PageTables
