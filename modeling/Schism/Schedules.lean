import Mathlib

/-!
# Schedules

A system whose steps are chosen by an environment: `step e s` is the state after the event `e` in `s`, and a
schedule is the sequence of the events.
-/

namespace Schism.Schedules

variable {E S : Type*} (step : E → S → S)

/-- The state after the first `n` events of the schedule `σ`. -/
def run (σ : ℕ → E) (s : S) : ℕ → S
  | 0 => s
  | n + 1 => step (σ n) (run σ s n)

/-- The events that happen again and again. -/
def InfinitelyOften (σ : ℕ → E) (p : E → Prop) : Prop := ∃ᶠ n in Filter.atTop, p (σ n)

end Schism.Schedules
