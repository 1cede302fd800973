import Mathlib.Logic.Function.Basic
import OtaBoot.Foundation.Interrupts

/-!
# The serial driver

Reception in `bootloader/src/uart.c`: the interrupt handler, which runs at once,
and the functions of the main context, one memory access after the other. Of an
instance only what reception uses is kept; the registers are the hardware's, and
what is read from them is an argument.
-/

namespace OtaBoot

open Interrupts

/-- `UART_RX_BUFFER_SIZE`. -/
def uartRxBufferSize : Nat := 512

/-- `uart_t`, without the registers. There is no buffer on a transmit-only
instance. -/
structure Uart where
  rxBuf : Option (UInt32 → UInt8)
  rxMask : UInt32
  rxHead : UInt32
  rxTail : UInt32
  cntOverrunSw : UInt32
  cntOverrunHw : UInt32
  cntFraming : UInt32
  cntNoise : UInt32

/-- `uart_proto`. -/
def uartProto : Uart where
  rxBuf := some fun _ => 0
  rxMask := UInt32.ofNat uartRxBufferSize - 1
  rxHead := 0
  rxTail := 0
  cntOverrunSw := 0
  cntOverrunHw := 0
  cntFraming := 0
  cntNoise := 0

/-- What `uart_configure` does to the indices. -/
def Uart.configure (u : Uart) : Uart := { u with rxHead := 0, rxTail := 0 }

/-! ## The interrupt handler -/

def isrPe : UInt32 := (1 : UInt32) <<< 0
def isrFe : UInt32 := (1 : UInt32) <<< 1
def isrNe : UInt32 := (1 : UInt32) <<< 2
def isrOre : UInt32 := (1 : UInt32) <<< 3
def isrRxne : UInt32 := (1 : UInt32) <<< 5

/-- The error flags are cleared in the hardware, and all but parity counted. -/
def Uart.countErrors (status : UInt32) (u : Uart) : Uart :=
  if status &&& (isrOre ||| isrFe ||| isrNe ||| isrPe) ≠ 0 then
    { u with
      cntOverrunHw := if status &&& isrOre ≠ 0 then u.cntOverrunHw + 1 else u.cntOverrunHw
      cntFraming := if status &&& isrFe ≠ 0 then u.cntFraming + 1 else u.cntFraming
      cntNoise := if status &&& isrNe ≠ 0 then u.cntNoise + 1 else u.cntNoise }
  else u

/-- The byte in `RDR`. -/
def rdrByte (rdr : UInt32) : UInt8 := (rdr &&& 0xFF).toUInt8

/-- `uart_isr`, which finds `status` in `ISR` and `rdr` in `RDR`. -/
def Uart.isr (status rdr : UInt32) (u : Uart) : Uart :=
  let u := u.countErrors status
  if status &&& isrRxne ≠ 0 then
    match u.rxBuf with
    | none => u
    | some buf =>
        let next := (u.rxHead + 1) &&& u.rxMask
        if next = u.rxTail then
          -- full: the byte is dropped
          { u with cntOverrunSw := u.cntOverrunSw + 1 }
        else
          { u with
            rxBuf := some (Function.update buf u.rxHead (rdrByte rdr))
            rxHead := next }
  else u

/-! ## The main context -/

/-- The byte in a slot of the buffer. -/
def Uart.slot (u : Uart) (index : UInt32) : UInt8 :=
  match u.rxBuf with
  | some buf => buf index
  | none => 0

/-- Programs of the main context. -/
abbrev MainCode := Code Uart

/-- `uart_available`. -/
def uartAvailable : MainCode UInt32 := do
  let buf ← Code.get Uart.rxBuf
  if buf.isNone then
    return 0
  let head ← Code.get Uart.rxHead
  let tail ← Code.get Uart.rxTail
  let mask ← Code.get Uart.rxMask
  return (head - tail) &&& mask

/-- `uart_getc`: the byte, when it returns 1. The pointer `out` may be NULL. -/
def uartGetc (out : Bool) : MainCode (Option UInt8) := do
  let buf ← Code.get Uart.rxBuf
  if buf.isNone || !out then
    return none
  let tail ← Code.get Uart.rxTail
  let head ← Code.get Uart.rxHead
  if head = tail then
    return none
  let byte ← Code.get (·.slot tail)
  let mask ← Code.get Uart.rxMask
  Code.set fun u => { u with rxTail := (tail + 1) &&& mask }
  return some byte

/-- The loop of `uart_read`, with the bytes that still fit. -/
def uartReadLoop : Nat → MainCode (List UInt8)
  | 0 => return []
  | room + 1 => do
      match ← uartGetc true with
      | none => return []
      | some byte =>
          let bytes ← uartReadLoop room
          return byte :: bytes

/-- `uart_read`: the bytes written to `dest`, which may be NULL. -/
def uartRead (dest : Bool) (max : UInt32) : MainCode (List UInt8) :=
  if !dest then
    return []
  else
    uartReadLoop max.toNat

/-- `uart_rx_flush`. -/
def uartRxFlush : MainCode Unit := do
  let buf ← Code.get Uart.rxBuf
  if buf.isSome then
    let head ← Code.get Uart.rxHead
    Code.set fun u => { u with rxTail := head }

/-! ## The driver -/

/-- What the handler finds in the registers. -/
structure UartIrq where
  status : UInt32
  rdr : UInt32

/-- The calls of the main context. -/
inductive UartCall where
  | available
  | getc (out : Bool)
  | read (dest : Bool) (max : UInt32)
  | flush

/-- What a call returns. -/
inductive UartResult where
  | count (number : UInt32)
  | byte (got : Option UInt8)
  | bytes (got : List UInt8)
  | flushed

def UartCall.body : UartCall → MainCode UartResult
  | .available => do
      let number ← uartAvailable
      return .count number
  | .getc out => do
      let got ← uartGetc out
      return .byte got
  | .read dest max => do
      let got ← uartRead dest max
      return .bytes got
  | .flush => do
      uartRxFlush
      return .flushed

/-- The driver and its users. -/
abbrev UartProcessor := Processor Uart UartIrq UartCall UartResult

/-- The driver and its users, one access or interrupt at a time. -/
def uartStep : UartProcessor → Event UartIrq UartCall → UartProcessor :=
  step (fun irq u => u.isr irq.status irq.rdr) UartCall.body

/-- After `uart_proto_init`, before the first call. -/
def uartReady : UartProcessor := ⟨uartProto.configure, none, []⟩

end OtaBoot
