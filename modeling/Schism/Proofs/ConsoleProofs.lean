import Schism.Console
import Schism.Proofs.SchedulesProofs

/-!
# What the console prints arrives

Nothing that is handed to `uart_putc` is lost, repeated or reordered, whatever the transmitter does in
between, and under a fair schedule all of it is transmitted. A transcript can be read back.
-/

namespace Schism

open Schedules

/-! ## The driver and its device -/

section Driver

variable {u : Uart} {d : Pl011} {text : List U8}

/-- Transmitted, waiting and pending bytes are the text, and a write finds room. -/
structure Uart.Conveys (text : List U8) (u : Uart) : Prop where
  all : u.dev.wire ++ u.dev.fifo ++ u.pending = text
  room : u.ready = true → u.dev.full = false
  fen : u.dev.lcrh &&& LCRH_FEN ≠ 0
  enabled : u.dev.enabled

/-- The test of `uart_putc` sees a full FIFO. -/
theorem mmio_read32_fr (d : Pl011) : decide (d.mmio_read32 .FR &&& FR_TXFF = 0) = !d.full := by
  have hset : (d.flags ||| FR_TXFF) &&& FR_TXFF = FR_TXFF := by
    ext i hi
    rw [BitVec.getElem_and, BitVec.getElem_or]
    cases FR_TXFF[i] <;> simp
  have hclear : d.flags &&& ~~~FR_TXFF &&& FR_TXFF = 0 := by
    rw [BitVec.and_assoc, BitVec.and_comm (~~~FR_TXFF)]
    simp
  cases hfull : d.full with
  | false => simp [Pl011.mmio_read32, hfull, hclear]
  | true =>
    simp only [Pl011.mmio_read32, hfull, if_true, hset]
    decide

theorem start_conveys (d : Pl011) (text : List U8) :
    (Uart.start d text).Conveys (d.wire ++ d.fifo ++ text) where
  all := rfl
  room h := absurd h Bool.false_ne_true
  fen := (by decide : (LCRH_WLEN8 ||| LCRH_FEN) &&& LCRH_FEN ≠ 0)
  enabled := (by decide : (CR_UARTEN ||| CR_TXE) &&& CR_UARTEN ≠ 0 ∧ (CR_UARTEN ||| CR_TXE) &&& CR_TXE ≠ 0)

/-- What the next access of `uart_putc` can do. -/
theorem putc_cases (u : Uart) : (u.pending = [] ∧ u.putc = u) ∨
    (u.ready = false ∧ u.pending ≠ [] ∧ u.putc = { u with ready := !u.dev.full }) ∨
    ∃ c pending, u.ready = true ∧ u.pending = c :: pending ∧
      u.putc = { dev := u.dev.mmio_write32 .DR (c.setWidth 32), pending := pending, ready := false } := by
  unfold Uart.putc
  cases hp : u.pending with
  | nil => exact .inl ⟨rfl, rfl⟩
  | cons c pending =>
    cases hr : u.ready with
    | true => exact .inr (.inr ⟨c, pending, rfl, rfl, rfl⟩)
    | false =>
      refine .inr (.inl ⟨rfl, List.cons_ne_nil _ _, ?_⟩)
      simp only [mmio_read32_fr, Bool.false_eq_true, if_false]

theorem setWidth_dr (c : U8) : (c.setWidth 32).setWidth 8 = c := by simp

/-- What the transmitter can do. -/
theorem transmit_cases (d : Pl011) (h : d.enabled) : (d.fifo = [] ∧ d.transmit = d) ∨
    ∃ b fifo, d.fifo = b :: fifo ∧ d.transmit = { d with fifo := fifo, wire := d.wire ++ [b] } := by
  unfold Pl011.transmit
  cases hf : d.fifo with
  | nil => exact .inl ⟨rfl, rfl⟩
  | cons b fifo => exact .inr ⟨b, fifo, rfl, if_pos h⟩

theorem Uart.Conveys.write (h : u.Conveys text) {c : U8} (hr : u.ready = true) :
    u.dev.mmio_write32 .DR (c.setWidth 32) = { u.dev with fifo := u.dev.fifo ++ [c] } := by
  simp only [Pl011.mmio_write32, h.room hr, Bool.false_eq_true, if_false, setWidth_dr]

/-- Every access of the processor and every step of the transmitter keeps the text. -/
theorem step_conveys (e : UartEvent) (u : Uart) (h : u.Conveys text) : (u.step e).Conveys text := by
  cases e with
  | cpu =>
    show u.putc.Conveys text
    rcases putc_cases u with ⟨-, hu⟩ | ⟨-, -, hu⟩ | ⟨c, pending, hr, hp, hu⟩
    · rw [hu]
      exact h
    · rw [hu]
      refine ⟨h.all, ?_, h.fen, h.enabled⟩
      intro hready
      exact (Bool.not_eq_true' _).mp hready
    · rw [hu, h.write hr]
      refine ⟨?_, fun hready => absurd hready Bool.false_ne_true, h.fen, h.enabled⟩
      have hall := h.all
      rw [hp] at hall
      simpa only [List.append_assoc, List.singleton_append] using hall
  | line flags =>
    show Uart.Conveys text { u with dev := { u.dev.transmit with flags := flags } }
    rcases transmit_cases u.dev h.enabled with ⟨-, hu⟩ | ⟨b, fifo, hf, hu⟩
    · rw [hu]
      exact ⟨h.all, h.room, h.fen, h.enabled⟩
    · rw [hu]
      refine ⟨?_, ?_, h.fen, h.enabled⟩
      · have hall := h.all
        rw [hf] at hall
        simpa only [List.append_assoc, List.cons_append, List.nil_append] using hall
      · intro hready
        have hroom := h.room hready
        simp only [Pl011.full, Pl011.depth, hf, List.length_cons, decide_eq_false_iff_not] at hroom ⊢
        exact decide_eq_false fun hle => hroom (Nat.le_succ_of_le hle)

/-- Whatever the schedule, what has been transmitted, what waits in the device and what the driver has not
written are the text in this order, and the driver never writes to a full FIFO. -/
theorem console_conveys (d : Pl011) (text : List U8) (σ : ℕ → UartEvent) (n : ℕ) :
    (run Uart.step σ (Uart.start d text) n).dev.wire ++ (run Uart.step σ (Uart.start d text) n).dev.fifo ++
        (run Uart.step σ (Uart.start d text) n).pending = d.wire ++ d.fifo ++ text ∧
      ((run Uart.step σ (Uart.start d text) n).ready = true →
        (run Uart.step σ (Uart.start d text) n).dev.full = false) := by
  have h := run_induction (σ := σ) (start_conveys d text) (fun e u => step_conveys e u) n
  exact ⟨h.all, h.room⟩

/-! ## Progress -/

/-- A pending byte needs a read of `UART_FR`, a write of `UART_DR` and the transmitter. -/
def Uart.rank (u : Uart) : ℕ :=
  3 * u.pending.length + u.dev.fifo.length + if u.ready then 0 else 1

theorem putc_rank_le (h : u.Conveys text) : u.putc.rank ≤ u.rank := by
  rcases putc_cases u with ⟨-, hu⟩ | ⟨hr, -, hu⟩ | ⟨c, pending, hr, hp, hu⟩
  · rw [hu]
  · rw [hu, Uart.rank, Uart.rank, hr]
    cases u.dev.full <;> simp
  · rw [hu, h.write hr, Uart.rank, Uart.rank, hp, hr]
    simp only [List.length_append, List.length_cons, List.length_nil, Bool.false_eq_true, if_false, if_true]
    omega

theorem putc_rank_lt (h : u.Conveys text) (hp : u.pending ≠ []) (hf : u.dev.fifo = []) :
    u.putc.rank < u.rank := by
  rcases putc_cases u with ⟨hnil, -⟩ | ⟨hr, -, hu⟩ | ⟨c, pending, hr, hp, hu⟩
  · exact absurd hnil hp
  · have hroom : u.dev.full = false := by
      simp only [Pl011.full, Pl011.depth, hf, List.length_nil, decide_eq_false_iff_not]
      split <;> decide
    rw [hu, Uart.rank, Uart.rank, hr, hroom]
    simp
  · rw [hu, h.write hr, Uart.rank, Uart.rank, hp, hr]
    simp only [List.length_append, List.length_cons, List.length_nil, Bool.false_eq_true, if_false, if_true]
    omega

theorem line_rank (h : u.Conveys text) (flags : U32) : (u.step (.line flags)).rank ≤ u.rank ∧
    (u.dev.fifo ≠ [] → (u.step (.line flags)).rank < u.rank) := by
  have hline : (u.step (.line flags)).rank =
      3 * u.pending.length + u.dev.transmit.fifo.length + if u.ready then 0 else 1 := rfl
  rw [hline, Uart.rank]
  rcases transmit_cases u.dev h.enabled with ⟨hf, hu⟩ | ⟨b, fifo, hf, hu⟩
  · rw [hu]
    exact ⟨le_rfl, fun hne => absurd hf hne⟩
  · rw [hu, hf, List.length_cons]
    show 3 * u.pending.length + fifo.length + _ ≤ _ ∧ (_ → 3 * u.pending.length + fifo.length + _ < _)
    exact ⟨by omega, fun _ => by omega⟩

theorem step_rank_le (e : UartEvent) (u : Uart) (h : u.Conveys text) : (u.step e).rank ≤ u.rank := by
  cases e with
  | cpu => exact putc_rank_le h
  | line flags => exact (line_rank h flags).1

theorem Uart.Done.step (e : UartEvent) (h : u.Done) : (u.step e).Done := by
  obtain ⟨hp, hf⟩ := h
  cases e with
  | cpu =>
    have hu : u.putc = u := by rw [Uart.putc, hp]
    show u.putc.Done
    rw [hu]
    exact ⟨hp, hf⟩
  | line flags =>
    have hu : u.dev.transmit = u.dev := by rw [Pl011.transmit, hf]
    show Uart.Done { u with dev := { u.dev.transmit with flags := flags } }
    rw [hu]
    exact ⟨hp, hf⟩

/-- The device has transmitted everything that it was given, but there is more. -/
def Uart.Drained (u : Uart) : Prop := u.dev.fifo = [] ∧ u.pending ≠ []

/-- The device has a byte to transmit. -/
def Uart.Loaded (text : List U8) (u : Uart) : Prop := u.Conveys text ∧ u.dev.fifo ≠ []

/-- The transmitter changes nothing in a drained device. -/
theorem Uart.Drained.step {e : UartEvent} (he : ¬ e = .cpu) (h : u.Drained) : (u.step e).Drained := by
  cases e with
  | cpu => exact absurd rfl he
  | line flags =>
    have hsame : u.dev.transmit = u.dev := by rw [Pl011.transmit, h.1]
    refine ⟨?_, h.2⟩
    show u.dev.transmit.fifo = []
    rw [hsame]
    exact h.1

/-- The processor only adds to the FIFO. -/
theorem Uart.Loaded.step {e : UartEvent} (he : ¬ ∃ flags, e = .line flags) (h : u.Loaded text) :
    (u.step e).Loaded text := by
  refine ⟨step_conveys e u h.1, ?_⟩
  cases e with
  | line flags => exact absurd ⟨flags, rfl⟩ he
  | cpu =>
    show u.putc.dev.fifo ≠ []
    rcases putc_cases u with ⟨-, hc⟩ | ⟨-, -, hc⟩ | ⟨c, pending, hr, -, hc⟩
    · rw [hc]
      exact h.2
    · rw [hc]
      exact h.2
    · rw [hc, h.1.write hr]
      exact List.append_ne_nil_of_left_ne_nil h.2 _

/-- The two parties of a schedule. -/
structure Fair (σ : ℕ → UartEvent) : Prop where
  cpu : InfinitelyOften σ fun e => e = .cpu
  line : InfinitelyOften σ fun e => ∃ flags, e = .line flags

/-- Under a fair schedule something is read, written or transmitted until everything is done. -/
theorem rank_lowered {σ : ℕ → UartEvent} (hσ : Fair σ) (d : Pl011) (text : List U8) (n : ℕ)
    (hn : ¬ (run Uart.step σ (Uart.start d text) n).Done) :
    ∃ m ≥ n, (run Uart.step σ (Uart.start d text) (m + 1)).rank <
      (run Uart.step σ (Uart.start d text) m).rank := by
  have hconveys := run_induction (σ := σ) (start_conveys d text) fun e u => step_conveys e u
  by_cases hf : (run Uart.step σ (Uart.start d text) n).dev.fifo = []
  · -- the processor finds room, and until then the transmitter has nothing to do
    have hdrained : (run Uart.step σ (Uart.start d text) n).Drained := ⟨hf, fun hp => hn ⟨hp, hf⟩⟩
    obtain ⟨m, hm, hcpu, hfm, hpm⟩ := first_event hσ.cpu n hdrained fun _ _ he h => h.step he
    refine ⟨m, hm, ?_⟩
    show (Uart.step (σ m) _).rank < _
    rw [hcpu]
    exact putc_rank_lt (hconveys m) hpm hfm
  · have hloaded : (run Uart.step σ (Uart.start d text) n).Loaded (d.wire ++ d.fifo ++ text) :=
      ⟨hconveys n, hf⟩
    obtain ⟨m, hm, ⟨flags, hline⟩, -, hfm⟩ := first_event hσ.line n hloaded fun _ _ he h => h.step he
    refine ⟨m, hm, ?_⟩
    show (Uart.step (σ m) _).rank < _
    rw [hline]
    exact (line_rank (hconveys m) flags).2 hfm

/-- If the processor and the transmitter both go on, there comes a time from which on everything is done. -/
theorem eventually_done (d : Pl011) (text : List U8) {σ : ℕ → UartEvent} (hσ : Fair σ) :
    ∃ n, ∀ m ≥ n, (run Uart.step σ (Uart.start d text) m).Done := by
  obtain ⟨n, hdone⟩ := reaches_of_rank (σ := σ) Uart.rank (start_conveys d text)
    (fun e u => step_conveys e u) (fun e u => step_rank_le e u) (rank_lowered hσ d text)
  refine ⟨n, ?_⟩
  intro m hm
  obtain ⟨k, rfl⟩ := Nat.exists_eq_add_of_le hm
  rw [run_add]
  exact run_induction hdone (fun e u h => h.step e) k

theorem Uart.Conveys.wire (h : u.Conveys text) (hdone : u.Done) : u.dev.wire = text := by
  have hall := h.all
  rw [hdone.1, hdone.2, List.append_nil, List.append_nil] at hall
  exact hall

theorem done_wire {d : Pl011} {text : List U8} {σ : ℕ → UartEvent} {n : ℕ}
    (h : (run Uart.step σ (Uart.start d text) n).Done) :
    (run Uart.step σ (Uart.start d text) n).dev.wire = d.wire ++ d.fifo ++ text :=
  (run_induction (σ := σ) (start_conveys d text) (fun e u => step_conveys e u) n).wire h

/-- Under a fair schedule the whole text is transmitted, behind what the device had before, and then the
line is silent. -/
theorem console_delivers (d : Pl011) (text : List U8) {σ : ℕ → UartEvent} (hσ : Fair σ) :
    ∃ n, ∀ m ≥ n, (run Uart.step σ (Uart.start d text) m).Done ∧
      (run Uart.step σ (Uart.start d text) m).dev.wire = d.wire ++ d.fifo ++ text := by
  obtain ⟨n, hn⟩ := eventually_done d text hσ
  exact ⟨n, fun m hm => ⟨hn m hm, done_wire (hn m hm)⟩⟩

/-- The processor and the transmitter take turns. -/
def uartTurns (n : ℕ) : UartEvent := if n % 2 = 0 then .cpu else .line 0

theorem uartTurns_fair : Fair uartTurns where
  cpu := by
    refine Filter.frequently_atTop.mpr fun n => ⟨2 * n, by omega, ?_⟩
    have hmod : 2 * n % 2 = 0 := by omega
    exact if_pos hmod
  line := by
    refine Filter.frequently_atTop.mpr fun n => ⟨2 * n + 1, by omega, 0, ?_⟩
    have hmod : ¬ (2 * n + 1) % 2 = 0 := by omega
    exact if_neg hmod

/-- A device after reset. -/
def resetUart : Pl011 where
  ibrd := 0
  fbrd := 0
  lcrh := 0
  cr := 0x300
  imsc := 0
  flags := 0x90
  fifo := []
  wire := []

theorem console_delivers_turns : ∃ n, ∀ m ≥ n,
    (run Uart.step uartTurns (Uart.start resetUart (uart_puts (literal "EL2\n"))) m).Done ∧
    (run Uart.step uartTurns (Uart.start resetUart (uart_puts (literal "EL2\n"))) m).dev.wire =
      [0x45, 0x4c, 0x32, 0x0d, 0x0a] :=
  console_delivers resetUart _ uartTurns_fair

end Driver

end Schism
