import Mathlib

/-!
# Round robin, and round robin with nested turns

`schedule` is the round-robin order over an arbitrary successor function. `turns` is a scheduler that
serves a request by a nested call: the party that the call enters is in its turn until it first
comes back, and a request it makes there waits for the end of the turn after that. The two agree when
no two requests follow each other (`Schism.Proofs.RoundRobinProofs`).

`Rota` is a position that moves around a rota of places while places are added behind the last one.
-/

namespace Schism.RoundRobin

variable {α : Type*}

/-- The parties served, starting with `a`: the same again, or the successor after a request. -/
def schedule (succ : α → α) (a : α) : List Bool → List α
  | [] => [a]
  | w :: ws => a :: schedule succ (if w then succ a else a) ws

/-- The party being served, whether by a nested call, and whether it has an unserved request. -/
structure Turn (α : Type*) where
  cur : α
  nested : Bool
  pending : Bool

/-- The next turn after one that ended with (`w`) or without a request. -/
def Turn.next [DecidableEq α] (succ : α → α) (t : Turn α) (w : Bool) : Turn α :=
  if t.nested then ⟨t.cur, false, t.pending || w⟩
  else if (w || t.pending) = true ∧ succ t.cur ≠ t.cur then ⟨succ t.cur, true, false⟩
  else ⟨t.cur, false, false⟩

/-- All turns of a sequence of requests, the current one first. -/
def turns [DecidableEq α] (succ : α → α) (t : Turn α) : List Bool → List (Turn α)
  | [] => [t]
  | w :: ws => t :: turns succ (t.next succ w) ws

/-- No two requests follow each other. -/
def Spaced (ws : List Bool) : Prop := ws.IsChain fun a b => ¬ (a = true ∧ b = true)

instance (ws : List Bool) : Decidable (Spaced ws) := inferInstanceAs (Decidable (List.IsChain _ ws))

/-! ## A rota that grows -/

/-- A position on a rota of `size` places. -/
structure Rota where
  size : ℕ
  pos : ℕ

/-- One more place behind the last one, or a move to the next place. -/
inductive RotaStep where
  | grow
  | move

namespace Rota

def step (r : Rota) : RotaStep → Rota
  | .grow => { r with size := r.size + 1 }
  | .move => { r with pos := (r.pos + 1) % r.size }

/-- The rota after a sequence of steps. -/
def run (r : Rota) (ss : List RotaStep) : Rota := ss.foldl step r

/-- The places that the moves of a sequence reach, in order. -/
def visits (r : Rota) : List RotaStep → List ℕ
  | [] => []
  | .grow :: ss => (r.step .grow).visits ss
  | .move :: ss => (r.step .move).pos :: (r.step .move).visits ss

end Rota

end Schism.RoundRobin
