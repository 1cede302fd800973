import OtaBoot.Foundation.Driven
import OtaBoot.Foundation.Transmitter
import OtaBoot.Firmware.BootMain
import OtaBoot.Firmware.Iwdg
import OtaBoot.Firmware.UartTx

/-!
# The application

The main loop of `app/main.c` on the registers it uses. A program that needs an
answer of the hardware reads it there; between two accesses bytes arrive, the
transmitter shifts, and a peripheral may stop working. What is only printed at
start-up is left out, and so is the delay, which touches no register.
-/

namespace OtaBoot.App

/-! ## Registers -/

/-- `BOOT_REQUEST_MAGIC`. -/
def bootRequestMagic : UInt32 := 0xDEADBEEF

structure Hardware where
  /-- `GPIOA_ODR`, and whether the port has its clock. -/
  odr : UInt32
  gpioClocked : Bool
  /-- The transmitter of USART2. -/
  tx : Transmitter UInt8
  /-- `USART1_RDR`, when it holds a byte, and the overrun flag. -/
  rdr : Option UInt8
  ore : Bool
  /-- `USART1_CR1`. -/
  cr1 : UInt32
  /-- All that came in on the line to USART1. -/
  heard : List UInt8
  /-- The word at `_boot_request`, which the linker keeps clear of the stack. -/
  request : UInt32
  /-- What the application wrote to the watchdog. -/
  watchdog : List Iwdg.RegWrite

/-- What the hardware does by itself. -/
inductive Move where
  /-- A byte comes in on USART1. -/
  | arrives (byte : UInt8)
  /-- USART2 shifts. -/
  | shifts
  /-- The clock of the port is gated off. -/
  | gates
  /-- USART1 is disabled. -/
  | disables
  deriving DecidableEq, Repr

def cr1Ue : UInt32 := (1 : UInt32) <<< 0

namespace Hardware

/-- A byte that comes in while the last one is unread is lost, and none is taken
in until the overrun is cleared. -/
def arrives (hw : Hardware) (byte : UInt8) : Hardware :=
  let hw := { hw with heard := hw.heard ++ [byte] }
  if hw.cr1 &&& cr1Ue = 0 ∨ hw.ore then hw
  else
    match hw.rdr with
    | some _ => { hw with ore := true }
    | none => { hw with rdr := some byte }

def move (hw : Hardware) : Move → Hardware
  | .arrives byte => hw.arrives byte
  | .shifts => { hw with tx := hw.tx.advance }
  | .gates => { hw with gpioClocked := false }
  | .disables => { hw with cr1 := hw.cr1 &&& ~~~cr1Ue }

/-- `USART1_ISR`, as far as reception goes. -/
def usart1Isr (hw : Hardware) : UInt32 :=
  (if hw.rdr.isSome then isrRxne else 0) ||| (if hw.ore then isrOre else 0)

/-- Reading `USART1_RDR` empties it. -/
def readRdr (hw : Hardware) : UInt32 × Hardware :=
  ((hw.rdr.getD 0).toUInt32, { hw with rdr := none })

/-- A port without its clock reads as zero and ignores what is written. -/
def readOdr (hw : Hardware) : UInt32 := if hw.gpioClocked then hw.odr else 0

def writeOdr (hw : Hardware) (value : UInt32) : Hardware :=
  if hw.gpioClocked then { hw with odr := value } else hw

end Hardware

/-- Programs of the application. -/
abbrev AppCode := Driven Hardware Move

/-- Read a register that does not mind. -/
def load (reg : Hardware → UInt32) : AppCode UInt32 :=
  Driven.access Hardware.move fun hw => (reg hw, hw)

/-- Write a register. -/
def store (write : Hardware → Hardware) : AppCode Unit :=
  Driven.access Hardware.move fun hw => ((), write hw)

/-! ## Serial lines -/

/-- `uart_putc`. -/
def uartPutc (c : UInt8) : AppCode Unit := do
  let _ ← Driven.await Hardware.move (fun hw => (txStatus hw.tx, hw)) fun isr => isr &&& isrTxe ≠ 0
  store fun hw => { hw with tx := hw.tx.put c }

/-- `uart_puts`, on the characters before the NUL. -/
def uartPuts : List UInt8 → AppCode Unit
  | [] => pure ()
  | c :: s => do
      uartPutc c
      uartPuts s

/-- `uart_dec`. -/
def uartDec (v : UInt32) : AppCode Unit :=
  if v = 0 then uartPutc 0x30
  else
    match fillTmp 10 v [] with
    | some tmp => uartPuts tmp
    | none => pure ()

/-- What `uart_init` leaves of the registers: both lines configured, the errors
cleared and the receiver emptied. -/
def uartInit (hw : Hardware) : Hardware :=
  { hw with gpioClocked := true, cr1 := 0xD, rdr := none, ore := false }

/-- The first test of `uart_getc`. -/
def clearOverrun : AppCode Unit := do
  let isr ← load Hardware.usart1Isr
  if isr &&& isrOre ≠ 0 then store fun hw => { hw with ore := false } else return ()

/-- `uart_getc`: the byte, when it returns 1. -/
def uartGetc : AppCode (Option UInt8) := do
  clearOverrun
  let isr ← load Hardware.usart1Isr
  if isr &&& isrRxne ≠ 0 then
    let rdr ← Driven.access Hardware.move Hardware.readRdr
    return some (rdrByte rdr)
  else
    return none

/-- `software_reset`, up to the reset. -/
def softwareReset : AppCode Unit := do
  let _ ← Driven.await Hardware.move (fun hw => (txStatus hw.tx, hw)) fun isr => isr &&& isrTc ≠ 0

/-! ## The trigger -/

def otaTriggerByte : UInt8 := 0x55
def otaConfirmPolls : Nat := 4

/-- The loop of `ota_trigger_poll`: `seen` and `clean` at its end. -/
def drainLoop : Nat → Bool → Bool → AppCode (Bool × Bool)
  | 0, seen, clean => return (seen, clean)
  | budget + 1, seen, clean => do
      match ← uartGetc with
      | none => return (seen, clean)
      | some c => drainLoop budget true (clean && c = otaTriggerByte)

/-- What `ota_trigger_poll` makes of its static `streak`, and what it returns. -/
def advanceStreak (streak : Nat) (seen clean : Bool) : Nat × Bool :=
  let streak := if seen && clean then streak + 1 else 0
  if streak ≥ otaConfirmPolls then (0, true) else (streak, false)

/-- `ota_trigger_poll`. -/
def otaTriggerPoll (streak : Nat) : AppCode (Nat × Bool) := do
  let (seen, clean) ← drainLoop 16 false true
  return advanceStreak streak seen clean

/-- `boot_request_set`. -/
def bootRequestSet : AppCode Unit := store fun hw => { hw with request := bootRequestMagic }

/-! ## One pass of the main loop -/

def cyclesBeforeConfirmation : UInt32 := 3

def workBlink : UInt32 := (1 : UInt32) <<< 0
def workReport : UInt32 := (1 : UInt32) <<< 1
def workLink : UInt32 := (1 : UInt32) <<< 2
def workAll : UInt32 := workBlink ||| workReport ||| workLink

def ledPin : UInt32 := 5

/-- The local variables of `main` that outlive a pass, and the static `streak`. -/
structure Loop where
  cycle : UInt32
  confirmed : Bool
  streak : Nat
  deriving DecidableEq, Repr

/-- On entering the loop. -/
def Loop.start : Loop := ⟨0, false, 0⟩

/-- `WORK_BLINK`, read back out of the port. -/
def blink : AppCode UInt32 := do
  let before ← load Hardware.readOdr
  let odr ← load Hardware.readOdr
  store fun hw => hw.writeOdr (odr ^^^ (1 <<< ledPin))
  let after ← load Hardware.readOdr
  return if (after >>> ledPin) &&& 1 ≠ (before >>> ledPin) &&& 1 then workBlink else 0

/-- The wait for `TC`, with so many reads left: `WORK_REPORT`. -/
def awaitReport : Nat → AppCode UInt32
  | 0 => return 0
  | budget + 1 => do
      let isr ← load fun hw => txStatus hw.tx
      if isr &&& isrTc ≠ 0 then return workReport else awaitReport budget

/-- `WORK_LINK`. -/
def checkLink : AppCode UInt32 := do
  let cr1 ← load Hardware.cr1
  return if cr1 &&& cr1Ue ≠ 0 then workLink else 0

/-- `"cycle "` and `"\r\n"`. -/
def cycleText : List UInt8 := [0x63, 0x79, 0x63, 0x6C, 0x65, 0x20]
def crlf : List UInt8 := [0x0D, 0x0A]

/-- The line that announces the reset. -/
def requestText : List UInt8 :=
  ['O', 'T', 'A', ' ', 'r', 'e', 'q', 'u', 'e', 's', 't', ' ', 'c', 'o', 'n', 'f', 'i', 'r', 'm',
    'e', 'd', ' ', '-', '-', ' ', 'r', 'e', 's', 'e', 't', 't', 'i', 'n', 'g', ' ', 't', 'o', ' ',
    'b', 'o', 'o', 't', 'l', 'o', 'a', 'd', 'e', 'r'].map fun c => UInt8.ofNat c.toNat

/-- How a pass gets to its end: by the reset it asked for, or with its evidence. -/
inductive PassEnd where
  | handsOver
  | goesOn (work : UInt32)
  deriving DecidableEq, Repr

/-- A pass up to the poll: the work done so far. -/
def report (cycle : UInt32) : AppCode UInt32 := do
  let blinked ← blink
  uartPuts cycleText
  uartDec cycle
  uartPuts crlf
  let reported ← awaitReport 50000
  return blinked ||| reported

/-- What is done about a confirmed request. -/
def handOver : AppCode Unit := do
  uartPuts (crlf ++ requestText ++ crlf)
  bootRequestSet
  softwareReset

/-- A pass from the poll on, with the work done before it. -/
def respond (s : Loop) (work : UInt32) : AppCode (Loop × PassEnd) := do
  let (streak, triggered) ← otaTriggerPoll s.streak
  let s := { s with streak }
  if triggered then
    handOver
    return (s, .handsOver)
  else
    let linked ← checkLink
    return (s, .goesOn (work ||| linked))

/-- A pass of the loop, up to the confirmation and the refresh. -/
def appPass (s : Loop) : AppCode (Loop × PassEnd) := do
  let s := { s with cycle := s.cycle + 1 }
  let work ← report s.cycle
  respond s work

/-- The test before `confirm_startup`. -/
def Loop.confirms (s : Loop) : Bool := !s.confirmed && s.cycle ≥ cyclesBeforeConfirmation

/-- `iwdg_feed_if(work == WORK_ALL)`. -/
def Hardware.feedIf (hw : Hardware) (work : UInt32) : Hardware :=
  { hw with watchdog := hw.watchdog ++ ((Iwdg.iwdgFeedIf (work = workAll)).run []).1 }

end OtaBoot.App
