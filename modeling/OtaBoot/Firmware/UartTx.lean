import OtaBoot.Foundation.Driven
import OtaBoot.Foundation.Transmitter

/-!
# Transmission

The other half of `bootloader/src/uart.c`: blocking transmission and the
formatting of numbers. The instance is left out, each has a transmitter of its
own. A pointer that may be NULL is an `Option`.
-/

namespace OtaBoot

def isrTc : UInt32 := (1 : UInt32) <<< 6
def isrTxe : UInt32 := (1 : UInt32) <<< 7

/-- Programs on the transmitter of an instance, which shifts at its own pace. -/
abbrev TxCode := Driven (Transmitter UInt8) Unit

/-- `ISR`, as far as transmission goes. -/
def txStatus (t : Transmitter UInt8) : UInt32 :=
  (if t.ready then isrTxe else 0) ||| (if t.idle then isrTc else 0)

/-- The transmitter makes one move. -/
def txMove (t : Transmitter UInt8) (_ : Unit) : Transmitter UInt8 := t.advance

/-! ## Characters -/

def uartPutc (c : UInt8) : TxCode Unit := do
  let _ ← Driven.await txMove (fun t => (txStatus t, t)) fun isr => isr &&& isrTxe ≠ 0
  Driven.access txMove fun t => ((), t.put c)

/-- The loop of `uart_puts`. The string ends with its first NUL. -/
def uartPutsLoop : List UInt8 → TxCode Unit
  | [] => pure ()
  | c :: s => if c = 0 then pure () else do
      uartPutc c
      uartPutsLoop s

def uartPuts (s : Option (List UInt8)) : TxCode Unit :=
  match s with
  | none => pure ()
  | some s => uartPutsLoop s

/-- The loop of `uart_write`. -/
def uartWriteLoop : List UInt8 → TxCode Unit
  | [] => pure ()
  | byte :: data => do
      uartPutc byte
      uartWriteLoop data

def uartWrite (data : Option (List UInt8)) : TxCode Unit :=
  match data with
  | none => pure ()
  | some data => uartWriteLoop data

def uartFlush : TxCode Unit := do
  let _ ← Driven.await txMove (fun t => (txStatus t, t)) fun isr => isr &&& isrTc ≠ 0

/-! ## Numbers -/

/-- `HEX_DIGITS`. -/
def hexDigits : List UInt8 :=
  [0x30, 0x31, 0x32, 0x33, 0x34, 0x35, 0x36, 0x37, 0x38, 0x39, 0x41, 0x42, 0x43, 0x44, 0x45, 0x46]

def hexDigit (index : UInt32) : UInt8 := hexDigits.getD index.toNat 0

/-- The loop of `uart_hex32`, from the shift counts that are left. -/
def uartHexLoop (v : UInt32) : List UInt32 → TxCode Unit
  | [] => pure ()
  | i :: rest => do
      uartPutc (hexDigit ((v >>> i) &&& 0xF))
      uartHexLoop v rest

def uartHex32 (v : UInt32) : TxCode Unit := do
  uartPuts (some [0x30, 0x78])
  uartHexLoop v [28, 24, 20, 16, 12, 8, 4, 0]

def uartHex8 (v : UInt8) : TxCode Unit := do
  uartPutc (hexDigit ((v.toUInt32 >>> 4) &&& 0xF))
  uartPutc (hexDigit (v.toUInt32 &&& 0xF))

/-- The first loop of `uart_dec`: what `tmp` holds at its end, the last digit
stored first. There is nothing when a digit would be stored outside `tmp`, which
has room for so many more. -/
def fillTmp : Nat → UInt32 → List UInt8 → Option (List UInt8)
  | room, v, tmp =>
      if v > 0 then
        match room with
        | 0 => none
        | room + 1 => fillTmp room (v / 10) ((0x30 + (v % 10).toUInt8) :: tmp)
      else some tmp

def uartDec (v : UInt32) : TxCode Unit :=
  if v = 0 then uartPutc 0x30
  else
    match fillTmp 10 v [] with
    -- the second loop stores nothing: from the last digit stored to the first
    | some tmp => uartWriteLoop tmp
    | none => pure ()

/-! ## Calls -/

/-- The calls that transmit. -/
inductive TxCall where
  | putc (c : UInt8)
  | puts (s : Option (List UInt8))
  | write (data : Option (List UInt8))
  | hex32 (v : UInt32)
  | hex8 (v : UInt8)
  | dec (v : UInt32)
  | flush

def TxCall.body : TxCall → TxCode Unit
  | .putc c => uartPutc c
  | .puts s => uartPuts s
  | .write data => uartWrite data
  | .hex32 v => uartHex32 v
  | .hex8 v => uartHex8 v
  | .dec v => uartDec v
  | .flush => uartFlush

/-- Calls, one after the other. -/
def transmit : List TxCall → TxCode Unit
  | [] => pure ()
  | call :: calls => do
      call.body
      transmit calls

end OtaBoot
