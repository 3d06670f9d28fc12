import Schism.Proofs.ConsoleProofs
import Schism.Proofs.MonitorProofs

/-!
# Transcripts can be read back

`console_hex64` prints sixteen digits, so the numbers in a transcript of a known form end where the form
says, and the text determines them.
-/

namespace Schism

open Schedules

/-! ## Digits -/

/-- The character that `console_hex64` prints for the `i`-th digit from the right. -/
def hexDigit (x : U64) (i : ℕ) : U8 := hexDigits.getD ((x >>> (i * 4)) &&& 0xf).toNat 0

theorem nibble_lt (x : U64) (i : ℕ) : ((x >>> (i * 4)) &&& 0xf).toNat < 16 := by
  rw [BitVec.toNat_and]
  exact lt_of_le_of_lt Nat.and_le_right (by decide)

theorem hexDigits_spec : ∀ n < 16, hexDigits.getD n 0 ≠ 0 ∧ hexDigits.getD n 0 ≠ 0x0a ∧
    digitValue (hexDigits.getD n 0) = some (BitVec.ofNat 64 n) := by decide

/-- Texts without `NUL` and newlines are printed as they are. -/
theorem uart_puts_plain {s : List U8} (hs : ∀ c ∈ s, c ≠ 0 ∧ c ≠ 0x0a) (rest : List U8) :
    uart_puts (s ++ rest) = s ++ uart_puts rest := by
  induction s with
  | nil => rfl
  | cons c s ih =>
    obtain ⟨h0, hn⟩ := hs c List.mem_cons_self
    rw [List.cons_append, uart_puts, if_neg h0, if_neg hn, ih fun c hc => hs c (List.mem_cons_of_mem _ hc)]
    rfl

/-- `console_hex64` prints `0x` and the digits from the left. -/
theorem console_hex64_eq (x : U64) :
    console_hex64 x = 0x30 :: 0x78 :: (List.range 16).reverse.map (hexDigit x) := by
  have hbuf : console_hex64 x =
      uart_puts ((0x30 :: 0x78 :: (List.range 16).reverse.map (hexDigit x)) ++ [0]) := rfl
  rw [hbuf, uart_puts_plain]
  · rfl
  · intro c hc
    rcases List.mem_cons.mp hc with rfl | hc
    · decide
    rcases List.mem_cons.mp hc with rfl | hc
    · decide
    obtain ⟨i, -, rfl⟩ := List.mem_map.mp hc
    have hspec := hexDigits_spec _ (nibble_lt x i)
    exact ⟨hspec.1, hspec.2.1⟩

/-- The `n` last digits of `x`. -/
def lowDigits (n : ℕ) (x : U64) : U64 := x &&& BitVec.ofNat 64 (2 ^ (4 * n) - 1)

theorem getLsbD_ones {n : ℕ} {i : ℕ} (hi : i < 64) :
    (BitVec.ofNat 64 (2 ^ n - 1)).getLsbD i = decide (i < n) := by
  rw [BitVec.getLsbD_ofNat, Nat.testBit_two_pow_sub_one, decide_eq_true hi, Bool.true_and]

/-- One more digit from the right. -/
theorem lowDigits_succ (n : ℕ) (x v : U64) :
    (v <<< 4 ||| ((x >>> (n * 4)) &&& 0xf)) <<< (4 * n) ||| lowDigits n x =
      v <<< (4 * (n + 1)) ||| lowDigits (n + 1) x := by
  have hf : (0xf : U64) = BitVec.ofNat 64 (2 ^ 4 - 1) := rfl
  refine BitVec.eq_of_getLsbD_eq ?_
  intro i hi
  rw [hf]
  simp only [lowDigits, BitVec.getLsbD_or, BitVec.getLsbD_and, BitVec.getLsbD_shiftLeft,
    BitVec.getLsbD_ushiftRight, getLsbD_ones hi, hi, decide_true, Bool.true_and]
  by_cases h₁ : i < 4 * n
  · have h₂ : i < 4 * (n + 1) := by omega
    simp only [h₁, h₂, decide_true, Bool.not_true, Bool.false_and, Bool.and_true, Bool.false_or]
  · have hsub : i - 4 * n < 64 := by omega
    simp only [h₁, decide_false, Bool.not_false, Bool.true_and, Bool.and_false, Bool.or_false,
      getLsbD_ones hsub]
    by_cases h₂ : i < 4 * (n + 1)
    · have h₃ : i - 4 * n < 4 := by omega
      have hidx : n * 4 + (i - 4 * n) = i := by omega
      simp only [h₂, h₃, hidx, hsub, decide_true, Bool.not_true, Bool.false_and, Bool.and_true,
        Bool.and_false, Bool.false_or]
    · have h₃ : ¬ i - 4 * n < 4 := by omega
      have hidx : i - 4 * n - 4 = i - 4 * (n + 1) := by omega
      simp only [h₂, h₃, hidx, hsub, decide_true, decide_false, Bool.not_false, Bool.true_and, Bool.and_false,
        Bool.or_false]

/-- Reading the `n` last digits of `x` behind `v`. -/
theorem readDigits_digits (x : U64) (rest : List U8) {n : ℕ} (hn : n ≤ 16) (v : U64) :
    readDigits n v ((List.range n).reverse.map (hexDigit x) ++ rest) =
      some (v <<< (4 * n) ||| lowDigits n x, rest) := by
  induction n generalizing v with
  | zero => simp [readDigits, lowDigits]
  | succ n ih =>
    have hspec := hexDigits_spec _ (nibble_lt x n)
    have hvalue : digitValue (hexDigit x n) = some ((x >>> (n * 4)) &&& 0xf) := by
      rw [hexDigit, hspec.2.2, BitVec.ofNat_toNat, BitVec.setWidth_eq]
    rw [List.range_succ, List.reverse_append, List.reverse_singleton, List.singleton_append, List.map_cons,
      List.cons_append, readDigits, hvalue, Option.bind_some, ih (by omega), lowDigits_succ]

/-- A printed number can be read back. -/
theorem readHex_console (x : U64) (rest : List U8) : readHex (console_hex64 x ++ rest) = some (x, rest) := by
  rw [console_hex64_eq]
  show readDigits 16 0 ((List.range 16).reverse.map (hexDigit x) ++ rest) = _
  rw [readDigits_digits x rest le_rfl]
  have hall : lowDigits 16 x = x := BitVec.and_allOnes
  have hzero : (0 : U64) <<< (4 * 16) ||| x = x := BitVec.zero_or
  rw [hall, hzero]

/-! ## Transcripts -/

/-- No text begins with a newline on the wire. -/
theorem uart_puts_head {s : List U8} (hs : 0 ∉ s) : (uart_puts s).head? ≠ some 0x0a := by
  cases s with
  | nil => exact nofun
  | cons c s =>
    have h0 : c ≠ 0 := fun h => hs (h ▸ List.mem_cons_self)
    have hcr : (0x0d : U8) ≠ 0x0a := by decide
    rw [uart_puts, if_neg h0]
    split
    · exact fun h => hcr (Option.some.inj h)
    · rename_i hn
      exact fun h => hn (Option.some.inj h)

/-- The carriage returns that `uart_puts` inserts can be taken out again. -/
theorem unputs_uart_puts {s : List U8} (hs : 0 ∉ s) : unputs (uart_puts s) = s := by
  induction s with
  | nil => rfl
  | cons c s ih =>
    have h0 : c ≠ 0 := fun h => hs (h ▸ List.mem_cons_self)
    have hs' : 0 ∉ s := fun h => hs (List.mem_cons_of_mem c h)
    rw [uart_puts, if_neg h0]
    by_cases hn : c = 0x0a
    · have hkeep : ¬ ((0x0a : U8) = 0x0d ∧ (uart_puts s).head? = some 0x0a) := fun h => absurd h.1 (by decide)
      rw [if_pos hn, hn, unputs, if_pos ⟨rfl, rfl⟩, unputs, if_neg hkeep, ih hs']
    · have hkeep : ¬ (c = 0x0d ∧ (uart_puts s).head? = some 0x0a) := fun h => uart_puts_head hs' h.2
      rw [if_neg hn, unputs, if_neg hkeep, ih hs']

/-- Whatever text EL2 prints, it arrives at the other end of the line, but for the carriage returns. -/
theorem console_puts_received {s : List U8} (hs : 0 ∉ s) (d : Pl011) {σ : ℕ → UartEvent} (hσ : Fair σ) :
    ∃ n, ∀ k ≥ n, unputs ((run Uart.step σ (Uart.start d (uart_puts s)) k).dev.wire.drop
      (d.wire ++ d.fifo).length) = s := by
  obtain ⟨n, hn⟩ := eventually_done d (uart_puts s) hσ
  refine ⟨n, ?_⟩
  intro k hk
  rw [done_wire (hn k hk), List.drop_left, unputs_uart_puts hs]

/-- A line of EL2 on a device that had one byte left. -/
theorem console_puts_received_line : 0 ∉ literal "EL2\r\n" ∧ ∃ n, ∀ k ≥ n,
    unputs ((run Uart.step uartTurns (Uart.start { resetUart with fifo := [0x3e] }
      (uart_puts (literal "EL2\r\n"))) k).dev.wire.drop 1) = literal "EL2\r\n" := by
  have hs : 0 ∉ literal "EL2\r\n" := by decide
  exact ⟨hs, console_puts_received hs { resetUart with fifo := [0x3e] } uartTurns_fair⟩

theorem readText_append (text rest : List U8) : readText text (text ++ rest) = some rest := by
  rw [readText, List.take_left, if_pos rfl, List.drop_left]

/-- A transcript of the given form can be read back. -/
theorem readTranscript_transcript {form out : List Out} (h : List.Forall₂ Out.SameForm form out)
    (rest : List U8) : readTranscript form (transcript out ++ rest) = some (out, rest) := by
  induction h with
  | nil => rfl
  | @cons o o' form out ho _ ih =>
    have hchars : transcript (o' :: out) ++ rest = o'.chars ++ (transcript out ++ rest) := by
      rw [transcript, List.flatMap_cons, List.append_assoc]
      rfl
    rw [hchars]
    cases o with
    | hex64 v =>
      cases o' with
      | hex64 w =>
        rw [readTranscript, Out.chars, readHex_console]
        simp only [Option.bind_eq_bind, Option.bind_some, ih, Option.pure_def]
      | puts | putsBytes => cases ho
    | puts t =>
      have hsame : Out.puts t = o' := by cases o' <;> exact ho
      rw [readTranscript, hsame, readText_append]
      · simp only [Option.bind_eq_bind, Option.bind_some, ih, Option.pure_def]
      · intro v h
        cases h
    | putsBytes bs =>
      have hsame : Out.putsBytes bs = o' := by cases o' <;> exact ho
      rw [readTranscript, hsame, readText_append]
      · simp only [Option.bind_eq_bind, Option.bind_some, ih, Option.pure_def]
      · intro v h
        cases h

/-- Transcripts of one form that begin alike on the line are the same, numbers and all. -/
theorem transcript_injective {form out out' : List Out} (h : List.Forall₂ Out.SameForm form out)
    (h' : List.Forall₂ Out.SameForm form out') {rest rest' : List U8}
    (heq : transcript out ++ rest = transcript out' ++ rest') : out = out' ∧ rest = rest' := by
  have hread := readTranscript_transcript h rest
  rw [heq, readTranscript_transcript h' rest'] at hread
  obtain ⟨hout, hrest⟩ := Prod.mk.injEq .. |>.mp (Option.some.inj hread)
  exact ⟨hout.symm, hrest.symm⟩

example : ([.puts " data0=", .hex64 0x2a] : List Out) ≠ [.puts " data0=", .hex64 0x2b] ∧
    transcript [.puts " data0=", .hex64 0x2a] ≠ transcript [.puts " data0=", .hex64 0x2b] := by
  have hform (v : U64) : List.Forall₂ Out.SameForm [.puts " data0=", .hex64 0] [.puts " data0=", .hex64 v] :=
    .cons rfl (.cons trivial .nil)
  have hne : ([.puts " data0=", .hex64 0x2a] : List Out) ≠ [.puts " data0=", .hex64 0x2b] := by decide
  refine ⟨hne, ?_⟩
  intro h
  exact hne (transcript_injective (hform _) (hform _) (congrArg (· ++ []) h)).1

/-! ## The dumps of EL2 -/

/-- The numbers in a transcript. -/
def numbers (out : List Out) : List U64 := out.filterMap fun
  | .hex64 v => some v
  | _ => none

/-- The beginning of the dump before EL2 hangs. -/
def bannerOf (esr elr spsr far code ec : U64) : List Out :=
  [.puts "\n=== EL2 Exception ===\n", .puts "ESR: ", .hex64 esr, .puts "\n",
    .puts "ELR: ", .hex64 elr, .puts "\n", .puts "SPSR: ", .hex64 spsr, .puts "\n",
    .puts "FAR: ", .hex64 far, .puts "\n", .puts "Code: ", .hex64 code, .puts "\n",
    .puts "====================\n", .puts "Exception Class (EC): ", .hex64 ec, .puts "\n"]

/-- Read the syndrome from the text of an exception dump. -/
def readSyndrome (s : List U8) : Option (List U64) :=
  (readTranscript (bannerOf 0 0 0 0 0 0) s).map fun r => (numbers r.1).take 5

theorem exception_dump_banner (m : Machine) (esr elr spsr far code : U64) :
    ∃ rest, exception_dump m esr elr spsr far code = bannerOf esr elr spsr far code (esr_ec esr) ++ rest := by
  unfold exception_dump
  dsimp only
  cases abort_text (esr_ec esr) with
  | none => exact ⟨[], rfl⟩
  | some text => exact ⟨abort_dump m esr far text, rfl⟩

/-- The arguments of the handler can be read from what it prints before it hangs, whatever follows. -/
theorem readSyndrome_dump (m : Machine) (esr elr spsr far code : U64) (rest : List U8) :
    readSyndrome (transcript (exception_dump m esr elr spsr far code) ++ rest) =
      some [esr, elr, spsr, far, code] := by
  obtain ⟨dump, hdump⟩ := exception_dump_banner m esr elr spsr far code
  have hform : List.Forall₂ Out.SameForm (bannerOf 0 0 0 0 0 0)
      (bannerOf esr elr spsr far code (esr_ec esr)) := by
    repeat first | exact .nil | refine .cons rfl ?_ | refine .cons trivial ?_
  rw [hdump, transcript, List.flatMap_append, List.append_assoc, readSyndrome]
  show Option.map _ (readTranscript _ (transcript (bannerOf esr elr spsr far code (esr_ec esr)) ++ _)) = _
  rw [readTranscript_transcript hform]
  rfl

end Schism
