import Schism.Schedules

/-!
# Programs on a shared memory

A program stores, loads, reads inputs of its environment and makes observable events, one at a time; a
thread runs a program for ever, passing a state from each round to the next one. The threads of a system
take their steps in any order. Addresses, values, inputs, events and states are parameters.
-/

namespace Schism.Threads

/-- A program with a result in `L`. -/
inductive Prog (A V I E L : Type) where
  | done (l : L)
  | store (a : A) (v : V) (next : Prog A V I E L)
  | load (a : A) (next : V → Prog A V I E L)
  | input (next : I → Prog A V I E L)
  | emit (e : E) (next : Prog A V I E L)

namespace Prog

variable {A V I E L L' : Type}

def bind : Prog A V I E L → (L → Prog A V I E L') → Prog A V I E L'
  | done l, f => f l
  | store a v p, f => store a v (p.bind f)
  | load a k, f => load a fun v => (k v).bind f
  | input k, f => input fun i => (k i).bind f
  | emit e p, f => emit e (p.bind f)

instance : Monad (Prog A V I E) where
  pure := done
  bind := bind

/-- The program touches only addresses of `W`. -/
def Within (W : Set A) : Prog A V I E L → Prop
  | done _ => True
  | store a _ p => a ∈ W ∧ p.Within W
  | load a k => a ∈ W ∧ ∀ v, (k v).Within W
  | input k => ∀ i, (k i).Within W
  | emit _ p => p.Within W

/-- Run alone, the program makes only events that satisfy `G` and ends in `Q`. -/
def wp [DecidableEq A] (G : E → (A → V) → Prop) : Prog A V I E L → (L → (A → V) → Prop) → (A → V) → Prop
  | done l, Q, mem => Q l mem
  | store a v p, Q, mem => p.wp G Q (Function.update mem a v)
  | load a k, Q, mem => (k (mem a)).wp G Q mem
  | input k, Q, mem => ∀ i, (k i).wp G Q mem
  | emit e p, Q, mem => G e mem ∧ p.wp G Q mem

end Prog

/-! ## Assertions about a part of memory -/

section Assertions

variable {A V : Type}

def Agree (W : Set A) (mem mem' : A → V) : Prop := ∀ a ∈ W, mem a = mem' a

/-- The assertion is about the addresses in `W` only. -/
def About (W : Set A) (P : (A → V) → Prop) : Prop := ∀ mem mem', Agree W mem mem' → P mem → P mem'

end Assertions

/-! ## Systems of threads -/

section System

variable {ι A V I E L : Type} [DecidableEq ι] [DecidableEq A]

/-- The threads with the rest of their rounds, memory and the events so far, each with memory at its
time. -/
structure Config (ι A V I E L : Type) where
  prog : ι → Prog A V I E L
  mem : A → V
  log : List (ι × E × (A → V))

/-- The thread `i` takes a step, with the input `inp` if it reads one. -/
def step (round : ι → L → Prog A V I E L) (e : ι × I) (c : Config ι A V I E L) : Config ι A V I E L :=
  match c.prog e.1 with
  | .done l => { c with prog := Function.update c.prog e.1 (round e.1 l) }
  | .store a v p => { c with prog := Function.update c.prog e.1 p, mem := Function.update c.mem a v }
  | .load a k => { c with prog := Function.update c.prog e.1 (k (c.mem a)) }
  | .input k => { c with prog := Function.update c.prog e.1 (k e.2) }
  | .emit ev p => { c with
      prog := Function.update c.prog e.1 p
      log := c.log ++ [(e.1, ev, c.mem)] }

/-- Whatever is loaded and read, the thread comes to an event in `P`, in this round or in a later one. -/
inductive Inevitable (round : L → Prog A V I E L) (P : E → Prop) : Prog A V I E L → Prop where
  | now {e : E} {p : Prog A V I E L} (h : P e) : Inevitable round P (.emit e p)
  | emit {e : E} {p : Prog A V I E L} (h : Inevitable round P p) : Inevitable round P (.emit e p)
  | store {a : A} {v : V} {p : Prog A V I E L} (h : Inevitable round P p) : Inevitable round P (.store a v p)
  | load {a : A} {k : V → Prog A V I E L} (h : ∀ v, Inevitable round P (k v)) : Inevitable round P (.load a k)
  | input {k : I → Prog A V I E L} (h : ∀ i, Inevitable round P (k i)) : Inevitable round P (.input k)
  | again {l : L} (h : Inevitable round P (round l)) : Inevitable round P (.done l)

/-- In some step after the first `n` of the schedule the thread `i` makes an event in `P`. -/
def Occurs (round : ι → L → Prog A V I E L) (σ : ℕ → ι × I) (c : Config ι A V I E L) (i : ι) (P : E → Prop)
    (n : ℕ) : Prop :=
  ∃ m ≥ n, ∃ e, P e ∧ (Schedules.run (step round) σ c (m + 1)).log =
    (Schedules.run (step round) σ c m).log ++ [(i, e, (Schedules.run (step round) σ c m).mem)]

/-- Each thread has addresses of its own, and is right when it runs alone. -/
structure Separate (round : ι → L → Prog A V I E L) (W : ι → Set A) (G : ι → E → (A → V) → Prop)
    (Q : ι → L → (A → V) → Prop) : Prop where
  apart : ∀ i j, i ≠ j → Disjoint (W i) (W j)
  within : ∀ i l, (round i l).Within (W i)
  about_event : ∀ i e, About (W i) (G i e)
  about_state : ∀ i l, About (W i) (Q i l)
  alone : ∀ i l mem, Q i l mem → (round i l).wp (G i) (Q i) mem

/-- Every thread is right so far, and will be if it runs alone from here on. -/
structure Right (W : ι → Set A) (G : ι → E → (A → V) → Prop) (Q : ι → L → (A → V) → Prop)
    (c : Config ι A V I E L) : Prop where
  within : ∀ i, (c.prog i).Within (W i)
  alone : ∀ i, (c.prog i).wp (G i) (Q i) c.mem
  log : ∀ i e mem, (i, e, mem) ∈ c.log → G i e mem

end System

end Schism.Threads
