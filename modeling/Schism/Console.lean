import Schism.Schedules
import Schism.GuestMonitor

/-!
# The console (`drivers/uart_pl011.c`)

The text functions as the sequences of the arguments of `uart_putc`, and `uart_putc` against the device. The
processor and the transmitter of the PL011 take their steps in any order. The device transmits with the
depth of its FIFO; receiving, the baud rate and interrupts do not matter to the driver, and the bits of
`UART_FR` other than `TXFF` change at any time.
-/

namespace Schism

/-! ## The device -/

/-- The registers that the driver names. -/
inductive UartReg where
  | DR | FR | IBRD | FBRD | LCRH | CR | IMSC | ICR
deriving DecidableEq

def FR_TXFF : U32 := 1 <<< 5
def CR_UARTEN : U32 := 1 <<< 0
def CR_TXE : U32 := 1 <<< 8
def LCRH_FEN : U32 := 1 <<< 4
def LCRH_WLEN8 : U32 := 3 <<< 5

structure Pl011 where
  ibrd : U32
  fbrd : U32
  lcrh : U32
  cr : U32
  imsc : U32
  /-- What the bits of `UART_FR` other than `TXFF` read as. -/
  flags : U32
  /-- The bytes that wait for transmission, the next one first. -/
  fifo : List U8
  /-- The bytes that have been transmitted. -/
  wire : List U8

namespace Pl011

/-- Without `FEN` the FIFO is a single holding register. -/
def depth (d : Pl011) : ℕ := if d.lcrh &&& LCRH_FEN = 0 then 1 else 16

def full (d : Pl011) : Bool := d.depth ≤ d.fifo.length

def mmio_read32 (d : Pl011) : UartReg → U32
  | .FR => if d.full then d.flags ||| FR_TXFF else d.flags &&& ~~~FR_TXFF
  | .IBRD => d.ibrd
  | .FBRD => d.fbrd
  | .LCRH => d.lcrh
  | .CR => d.cr
  | .IMSC => d.imsc
  -- nothing is received
  | .DR | .ICR => 0

/-- A write of `UART_DR` to a full FIFO is lost, and a write that clears `FEN` flushes the FIFO. -/
def mmio_write32 (d : Pl011) (r : UartReg) (v : U32) : Pl011 :=
  match r with
  | .DR => if d.full then d else { d with fifo := d.fifo ++ [v.setWidth 8] }
  | .IBRD => { d with ibrd := v }
  | .FBRD => { d with fbrd := v }
  | .LCRH => { d with lcrh := v, fifo := if v &&& LCRH_FEN = 0 then [] else d.fifo }
  | .CR => { d with cr := v }
  | .IMSC => { d with imsc := v }
  | .FR | .ICR => d

def enabled (d : Pl011) : Prop := d.cr &&& CR_UARTEN ≠ 0 ∧ d.cr &&& CR_TXE ≠ 0

instance (d : Pl011) : Decidable d.enabled := inferInstanceAs (Decidable (_ ∧ _))

/-- The transmitter takes a byte from the FIFO, if it is enabled and there is one. -/
def transmit (d : Pl011) : Pl011 :=
  match d.fifo with
  | [] => d
  | b :: fifo => if d.enabled then { d with fifo := fifo, wire := d.wire ++ [b] } else d

end Pl011

def uart_init (d : Pl011) : Pl011 :=
  let d := d.mmio_write32 .CR 0
  let d := d.mmio_write32 .ICR 0x7ff
  let d := d.mmio_write32 .IBRD 13
  let d := d.mmio_write32 .FBRD 1
  let d := d.mmio_write32 .LCRH (LCRH_WLEN8 ||| LCRH_FEN)
  let d := d.mmio_write32 .IMSC 0
  d.mmio_write32 .CR (CR_UARTEN ||| CR_TXE)

/-! ## `uart_putc` -/

/-- The driver and its device. -/
structure Uart where
  dev : Pl011
  /-- The arguments of the calls of `uart_putc` that have not been written, in order. -/
  pending : List U8
  /-- The loop of the first of these calls has been left. -/
  ready : Bool

inductive UartEvent where
  /-- The processor reads `UART_FR` or writes `UART_DR`. -/
  | cpu
  /-- The transmitter is done with a byte, and the other flags are now these. -/
  | line (flags : U32)

/-- The next access of `uart_putc`. -/
def Uart.putc (u : Uart) : Uart :=
  match u.pending with
  | [] => u
  | c :: pending =>
    if u.ready then { dev := u.dev.mmio_write32 .DR (c.setWidth 32), pending := pending, ready := false }
    else { u with ready := u.dev.mmio_read32 .FR &&& FR_TXFF = 0 }

def Uart.step (e : UartEvent) (u : Uart) : Uart :=
  match e with
  | .cpu => u.putc
  | .line flags => { u with dev := { u.dev.transmit with flags := flags } }

/-- `uart_init` has returned and the calls of `uart_putc` begin. -/
def Uart.start (d : Pl011) (text : List U8) : Uart where
  dev := uart_init d
  pending := text
  ready := false

/-- Everything has been transmitted. -/
def Uart.Done (u : Uart) : Prop := u.pending = [] ∧ u.dev.fifo = []

/-! ## Text -/

/-- `uart_puts`, on the bytes from the pointer on. -/
def uart_puts : List U8 → List U8
  | [] => []
  | c :: s =>
    if c = 0 then []
    else if c = 0x0a then 0x0d :: c :: uart_puts s
    else c :: uart_puts s

/-- The bytes of a literal. -/
def literal (s : String) : List U8 := s.toList.map fun c => BitVec.ofNat 8 c.toNat

def hexDigits : List U8 := literal "0123456789abcdef"

def console_hex64 (x : U64) : List U8 :=
  let buf : Fin 19 → U8 := Function.update (Function.update (fun _ => 0) 0 0x30) 1 0x78
  let buf := (List.range 16).foldl (fun buf i =>
    Function.update buf (Fin.ofNat 19 (2 + 15 - i)) (hexDigits.getD ((x >>> (i * 4)) &&& 0xf).toNat 0)) buf
  let buf := Function.update buf 18 0
  uart_puts (List.ofFn buf)

/-- The calls of `uart_putc` that a call of the console makes. -/
def Out.chars : Out → List U8
  | .puts s => uart_puts (literal s)
  | .putsBytes bs => uart_puts bs
  | .hex64 v => console_hex64 v

def transcript (out : List Out) : List U8 := out.flatMap Out.chars

/-! ## Reading a transcript -/

/-- The value of a hexadecimal digit. -/
def digitValue (c : U8) : Option U64 :=
  (hexDigits.findIdx? (· = c)).map fun i => BitVec.ofNat 64 i

/-- The text without the carriage returns that `uart_puts` has put before the newlines. -/
def unputs : List U8 → List U8
  | [] => []
  | c :: s => if c = 0x0d ∧ s.head? = some 0x0a then unputs s else c :: unputs s

/-- Read `n` digits. -/
def readDigits : ℕ → U64 → List U8 → Option (U64 × List U8)
  | 0, v, s => some (v, s)
  | _ + 1, _, [] => none
  | n + 1, v, c :: s => (digitValue c).bind fun d => readDigits n (v <<< 4 ||| d) s

/-- Read what `console_hex64` printed. -/
def readHex : List U8 → Option (U64 × List U8)
  | 0x30 :: 0x78 :: s => readDigits 16 0 s
  | _ => none

/-- Read a known text. -/
def readText (text s : List U8) : Option (List U8) :=
  if s.take text.length = text then some (s.drop text.length) else none

/-- Read a transcript whose calls are known but for the numbers. -/
def readTranscript : List Out → List U8 → Option (List Out × List U8)
  | [], s => some ([], s)
  | .hex64 _ :: form, s => do
    let (v, s) ← readHex s
    let (out, s) ← readTranscript form s
    pure (.hex64 v :: out, s)
  | o :: form, s => do
    let s ← readText o.chars s
    let (out, s) ← readTranscript form s
    pure (o :: out, s)

/-- The calls differ only in their numbers. -/
def Out.SameForm : Out → Out → Prop
  | .hex64 _, .hex64 _ => True
  | o, o' => o = o'

end Schism
