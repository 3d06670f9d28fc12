import Schism.Threads
import Schism.Proofs.SchedulesProofs

/-!
# Rules for programs and for systems of threads

One rule for each way to build a program, and two rules of the system: threads that are right when each runs
alone, on addresses of its own, are right in every interleaving (`Separate.run`), and a thread whose every
round leads to an event makes such events for ever if it is scheduled again and again (`Inevitable.recurs`).
-/

namespace Schism.Threads

section Programs

variable {A V I E L L' : Type} {W : Set A} {p : Prog A V I E L} {f : L → Prog A V I E L'}

namespace Prog

theorem Within.bind (hp : p.Within W) (hf : ∀ l, (f l).Within W) : (p >>= f).Within W := by
  induction p with
  | done l => exact hf l
  | store a v p ih => exact ⟨hp.1, ih hp.2⟩
  | load a k ih => exact ⟨hp.1, fun v => ih v (hp.2 v)⟩
  | input k ih => exact fun i => ih i (hp i)
  | emit e p ih => exact ih hp

theorem Within.foldlM {X S : Type} {g : S → X → Prog A V I E S} {xs : List X}
    (h : ∀ s, ∀ x ∈ xs, (g s x).Within W) (s : S) : (xs.foldlM g s).Within W := by
  induction xs generalizing s with
  | nil => trivial
  | cons x xs ih =>
    rw [List.foldlM_cons]
    exact (h s x List.mem_cons_self).bind fun s' => ih (fun s y hy => h s y (List.mem_cons_of_mem x hy)) s'

variable [DecidableEq A] {G : E → (A → V) → Prop} {Q : L → (A → V) → Prop}
  {R : L' → (A → V) → Prop} {mem : A → V}

/-- What a program does depends on the addresses that it touches. -/
theorem wp_about (hp : p.Within W) (hG : ∀ e, About W (G e)) (hQ : ∀ l, About W (Q l)) :
    About W (p.wp G Q) := by
  induction p with
  | done l => exact hQ l
  | store a v p ih =>
    intro mem mem' hagree h
    refine ih hp.2 _ _ ?_ h
    intro b hb
    by_cases hab : b = a
    · rw [hab, Function.update_self, Function.update_self]
    · rw [Function.update_of_ne hab, Function.update_of_ne hab]
      exact hagree b hb
  | load a k ih =>
    intro mem mem' hagree h
    have hsame : mem a = mem' a := hagree a hp.1
    have hk := ih (mem a) (hp.2 _) mem mem' hagree h
    rw [hsame] at hk
    exact hk
  | input k ih => exact fun mem mem' hagree h i => ih i (hp i) mem mem' hagree (h i)
  | emit e p ih => exact fun mem mem' hagree h => ⟨hG e mem mem' hagree h.1, ih hp mem mem' hagree h.2⟩

end Prog

end Programs

/-! ## Systems -/

section System

variable {ι A V I E L : Type} [DecidableEq ι] [DecidableEq A] {round : ι → L → Prog A V I E L}
  {W : ι → Set A} {G : ι → E → (A → V) → Prop} {Q : ι → L → (A → V) → Prop} {c : Config ι A V I E L}

/-- A thread that goes on within its addresses and leaves those of the others alone. -/
theorem Right.update (hS : Separate round W G Q) (h : Right W G Q c) (i : ι) {p : Prog A V I E L}
    {mem : A → V} (hp : p.Within (W i)) (halone : p.wp (G i) (Q i) mem)
    (hmem : ∀ a, a ∉ W i → mem a = c.mem a) :
    Right W G Q { c with prog := Function.update c.prog i p, mem := mem } := by
  refine ⟨?_, ?_, h.log⟩
  · intro j
    show (Function.update c.prog i p j).Within (W j)
    by_cases hij : j = i
    · subst hij
      rw [Function.update_self]
      exact hp
    · rw [Function.update_of_ne hij]
      exact h.within j
  · intro j
    show (Function.update c.prog i p j).wp (G j) (Q j) mem
    by_cases hij : j = i
    · subst hij
      rw [Function.update_self]
      exact halone
    · rw [Function.update_of_ne hij]
      refine Prog.wp_about (h.within j) (hS.about_event j) (hS.about_state j) _ _ ?_ (h.alone j)
      intro a ha
      exact (hmem a fun hi => Set.disjoint_left.mp (hS.apart j i hij) ha hi).symm

/-- A step of one thread keeps all of them right. -/
theorem Separate.step (hS : Separate round W G Q) (e : ι × I) (c : Config ι A V I E L)
    (h : Right W G Q c) : Right W G Q (step round e c) := by
  have hwithin := h.within e.1
  have halone := h.alone e.1
  unfold Threads.step
  cases hprog : c.prog e.1 with
  | done l =>
    rw [hprog] at halone
    exact h.update hS e.1 (hS.within e.1 l) (hS.alone e.1 l c.mem halone) fun _ _ => rfl
  | store a v p =>
    rw [hprog] at hwithin halone
    refine h.update hS e.1 hwithin.2 halone ?_
    intro b hb
    have hne : b ≠ a := fun hab => hb (hab ▸ hwithin.1)
    exact Function.update_of_ne hne v c.mem
  | load a k =>
    rw [hprog] at hwithin halone
    exact h.update hS e.1 (hwithin.2 _) halone fun _ _ => rfl
  | input k =>
    rw [hprog] at hwithin halone
    exact h.update hS e.1 (hwithin e.2) (halone e.2) fun _ _ => rfl
  | emit ev p =>
    rw [hprog] at hwithin halone
    have hupdate := h.update hS e.1 (p := p) hwithin halone.2 fun _ _ => rfl
    refine ⟨hupdate.within, hupdate.alone, ?_⟩
    intro i e' mem hmem
    rcases List.mem_append.mp hmem with hold | hnew
    · exact h.log i e' mem hold
    · obtain ⟨rfl, rfl, rfl⟩ : i = e.1 ∧ e' = ev ∧ mem = c.mem := by
        simpa only [List.mem_singleton, Prod.mk.injEq] using hnew
      exact halone.1

/-- Threads that are right alone are right in every interleaving. -/
theorem Separate.run (hS : Separate round W G Q) (h : Right W G Q c) (σ : ℕ → ι × I) (n : ℕ) :
    Right W G Q (Schedules.run (Threads.step round) σ c n) :=
  Schedules.run_induction h (fun e c hc => hS.step e c hc) n

end System

/-! ## Progress -/

section Progress

variable {ι A V I E L L' : Type} {rnd : L → Prog A V I E L} {P : E → Prop}

/-- A program whose rest leads to an event. -/
theorem Inevitable.bind {f : L' → Prog A V I E L} (p : Prog A V I E L') (h : ∀ l, Inevitable rnd P (f l)) :
    Inevitable rnd P (p >>= f) := by
  induction p with
  | done l => exact h l
  | store a v p ih => exact .store ih
  | load a k ih => exact .load ih
  | input k ih => exact .input ih
  | emit e p ih => exact .emit ih

/-- If every round leads to an event, so does the rest of a round. -/
theorem Inevitable.of_rounds (h : ∀ l, Inevitable rnd P (rnd l)) (p : Prog A V I E L) :
    Inevitable rnd P p := by
  induction p with
  | done l => exact .again (h l)
  | store a v p ih => exact .store ih
  | load a k ih => exact .load ih
  | input k ih => exact .input ih
  | emit e p ih => exact .emit ih

variable [DecidableEq ι] [DecidableEq A] {round : ι → L → Prog A V I E L} {c : Config ι A V I E L}
  {σ : ℕ → ι × I} {i : ι}

/-- The other threads leave the program of a thread alone. -/
theorem step_prog_of_ne (e : ι × I) (h : e.1 ≠ i) : (Threads.step round e c).prog i = c.prog i := by
  unfold Threads.step
  split <;> exact Function.update_of_ne h.symm _ c.prog

/-- What is left of a program after a step. -/
def Prog.next (again : L → Prog A V I E L) (inp : I) (mem : A → V) : Prog A V I E L → Prog A V I E L
  | .done l => again l
  | .store _ _ p => p
  | .load a k => k (mem a)
  | .input k => k inp
  | .emit _ p => p

theorem step_prog_self {e : ι × I} {q : Prog A V I E L} (hi : e.1 = i) (hq : c.prog i = q) :
    (Threads.step round e c).prog i = q.next (round i) e.2 c.mem := by
  subst hi
  unfold Threads.step
  rw [hq]
  cases q <;> exact Function.update_self _ _ c.prog

theorem step_log_emit {e : ι × I} {ev : E} {p : Prog A V I E L} (hi : e.1 = i) (hq : c.prog i = .emit ev p) :
    (Threads.step round e c).log = c.log ++ [(i, ev, c.mem)] := by
  subst hi
  unfold Threads.step
  rw [hq]

/-- From a program that leads to an event the event comes, in any schedule that does not forget the
thread. -/
theorem Inevitable.occurs (hσ : Schedules.InfinitelyOften σ fun e => e.1 = i) {p : Prog A V I E L}
    (h : Inevitable (round i) P p) :
    ∀ n, (Schedules.run (Threads.step round) σ c n).prog i = p → Occurs round σ c i P n := by
  have hturn (q : Prog A V I E L) (n : ℕ) (hn : (Schedules.run (Threads.step round) σ c n).prog i = q) :
      ∃ m ≥ n, (σ m).1 = i ∧ (Schedules.run (Threads.step round) σ c m).prog i = q :=
    Schedules.first_event (Q := fun d : Config ι A V I E L => d.prog i = q) hσ n hn
      fun e d hne hq => (step_prog_of_ne e hne).trans hq
  have hlater (q : Prog A V I E L) (n : ℕ) (hn : (Schedules.run (Threads.step round) σ c n).prog i = q)
      (hnext : ∀ m, (σ m).1 = i → (Schedules.run (Threads.step round) σ c m).prog i = q →
        Occurs round σ c i P (m + 1)) : Occurs round σ c i P n := by
    obtain ⟨m, hm, hi, hq⟩ := hturn q n hn
    obtain ⟨k, hk, hocc⟩ := hnext m hi hq
    exact ⟨k, by omega, hocc⟩
  induction h with
  | now he =>
    intro n hn
    obtain ⟨m, hm, hi, hq⟩ := hturn _ n hn
    exact ⟨m, hm, _, he, step_log_emit hi hq⟩
  | emit _ ih => exact fun n hn => hlater _ n hn fun m hi hq => ih (m + 1) (step_prog_self hi hq)
  | store _ ih => exact fun n hn => hlater _ n hn fun m hi hq => ih (m + 1) (step_prog_self hi hq)
  | load _ ih => exact fun n hn => hlater _ n hn fun m hi hq => ih _ (m + 1) (step_prog_self hi hq)
  | input _ ih => exact fun n hn => hlater _ n hn fun m hi hq => ih _ (m + 1) (step_prog_self hi hq)
  | again _ ih => exact fun n hn => hlater _ n hn fun m hi hq => ih (m + 1) (step_prog_self hi hq)

/-- A thread that is scheduled again and again, and whose every round leads to an event, makes such events
for ever. -/
theorem Inevitable.recurs (h : ∀ l, Inevitable (round i) P (round i l))
    (hσ : Schedules.InfinitelyOften σ fun e => e.1 = i) (n : ℕ) : Occurs round σ c i P n :=
  (Inevitable.of_rounds h _).occurs hσ n rfl

end Progress

end Schism.Threads
