import OtaBoot.Firmware.Flash
import OtaBoot.Foundation.Bus

/-!
# The flash driver at its registers

`drivers/flash.c` again, down to every access to the registers of the controller
and to the memory it programs. An erase starts when `STRT` is written to
`FLASH_CR`; a double-word is programmed when its two words are stored.
-/

namespace OtaBoot.FlashRegisters

/-! ## Registers -/

/-- What the driver writes: `FLASH_KEYR`, `FLASH_SR`, `FLASH_CR`, a word of flash. -/
inductive RegWrite where
  | keyr (value : UInt32)
  | sr (value : UInt32)
  | cr (value : UInt32)
  | store (address word : UInt32)
  deriving DecidableEq, Repr

/-- Programs on the registers. -/
abbrev Driver := Bus RegWrite UInt32

def flashKey1 : UInt32 := 0x45670123
def flashKey2 : UInt32 := 0xCDEF89AB

def srBsy : UInt32 := (1 : UInt32) <<< 16
def srOptverr : UInt32 := (1 : UInt32) <<< 15
def srRderr : UInt32 := (1 : UInt32) <<< 14
def srFasterr : UInt32 := (1 : UInt32) <<< 9
def srMiserr : UInt32 := (1 : UInt32) <<< 8
def srPgserr : UInt32 := (1 : UInt32) <<< 7
def srSizerr : UInt32 := (1 : UInt32) <<< 6
def srPgaerr : UInt32 := (1 : UInt32) <<< 5
def srWrperr : UInt32 := (1 : UInt32) <<< 4
def srProgerr : UInt32 := (1 : UInt32) <<< 3
def srOperr : UInt32 := (1 : UInt32) <<< 1
def srEop : UInt32 := (1 : UInt32) <<< 0

def srAllErrors : UInt32 :=
  srOptverr ||| srRderr ||| srFasterr ||| srMiserr ||| srPgserr ||| srSizerr ||| srPgaerr |||
    srWrperr ||| srProgerr ||| srOperr

def crLock : UInt32 := (1 : UInt32) <<< 31
def crStrt : UInt32 := (1 : UInt32) <<< 16
def crMer2 : UInt32 := (1 : UInt32) <<< 15
def crBker : UInt32 := (1 : UInt32) <<< 11
def crPnbShift : UInt32 := 3
def crPnbMask : UInt32 := (0xFF : UInt32) <<< crPnbShift
def crMer1 : UInt32 := (1 : UInt32) <<< 2
def crPer : UInt32 := (1 : UInt32) <<< 1
def crPg : UInt32 := (1 : UInt32) <<< 0

def readSr : Driver UInt32 := Bus.read

/-- `STRT` reads zero: the controller clears it at the end of an operation, and
the driver does not read `FLASH_CR` before. -/
def readCr : Driver UInt32 := (· &&& ~~~crStrt) <$> Bus.read

def readByte (_address : UInt32) : Driver UInt8 := UInt32.toUInt8 <$> Bus.read

/-! ## Internal utilities -/

def flashWaitBusy : Driver Unit := Bus.readWhile fun sr => sr &&& srBsy ≠ 0

def flashClearErrors : Driver Unit := Bus.write (.sr srAllErrors)

def flashCheckErrors : Driver FlashStatus := do
  let sr ← readSr
  if sr &&& srAllErrors ≠ 0 then do
    flashClearErrors
    pure .errProg
  else if sr &&& srEop ≠ 0 then do
    Bus.write (.sr srEop)
    pure .ok
  else pure .ok

def flashUnlock : Driver FlashStatus := do
  let cr ← readCr
  if cr &&& crLock = 0 then pure .ok
  else do
    Bus.write (.keyr flashKey1)
    Bus.write (.keyr flashKey2)
    let cr ← readCr
    pure (if cr &&& crLock ≠ 0 then .errLocked else .ok)

/-- `FLASH_CR &= ~bits`. -/
def clearCr (bits : UInt32) : Driver Unit := do
  let cr ← readCr
  Bus.write (.cr (cr &&& ~~~bits))

/-- `FLASH_CR |= bits`. -/
def setCr (bits : UInt32) : Driver Unit := do
  let cr ← readCr
  Bus.write (.cr (cr ||| bits))

def flashLock : Driver Unit := setCr crLock

/-! ## Read -/

/-- The loop of `flash_is_erased`, with so many bytes to go from `i` on. -/
def isErasedFrom (address : UInt32) : Nat → UInt32 → Driver Bool
  | 0, _ => pure true
  | count + 1, i => do
      let byte ← readByte (address + i)
      if byte ≠ erasedByte then pure false else isErasedFrom address count (i + 1)

def flashIsErased (address len : UInt32) : Driver Bool := isErasedFrom address len.toNat 0

/-! ## Erase -/

def flashErasePage (address : UInt32) : Driver FlashStatus :=
  if ¬ addressInFlash address flashPageSize then pure .errRange
  else if address % flashPageSize ≠ 0 then pure .errAlign
  else do
    let offset := address - flashBaseAddr
    let page := offset / flashPageSize
    let bank2 : Bool := pagesPerBank ≤ page
    let pnb := page % pagesPerBank
    let sr ← readSr
    if sr &&& srBsy ≠ 0 then pure .errBusy
    else do
      let st ← flashUnlock
      if st ≠ .ok then pure st
      else do
        flashClearErrors
        -- PER only, without PG or MER1/MER2
        let cr := crPer ||| (pnb <<< crPnbShift)
        let cr := if bank2 then cr ||| crBker else cr
        Bus.write (.cr cr)
        Bus.write (.cr (cr ||| crStrt))
        flashWaitBusy
        let st ← flashCheckErrors
        clearCr crPer
        flashLock
        if st ≠ .ok then pure st
        else do
          let erased ← flashIsErased address flashPageSize
          if ¬ erased then pure .errVerify else pure .ok

/-! ## Write -/

/-- The loop of `flash_write`, with so many double-words to go from `i` on. The
length is a multiple of eight, so `i` does not wrap. -/
def programFrom (address : UInt32) (data : Nat → UInt8) : Nat → UInt32 → Driver FlashStatus
  | 0, _ => pure .ok
  | count + 1, i => do
      let byte (k : Nat) : UInt8 := data (i.toNat + k)
      let low := LittleEndian.word32 (byte 0) (byte 1) (byte 2) (byte 3)
      let high := LittleEndian.word32 (byte 4) (byte 5) (byte 6) (byte 7)
      Bus.write (.store (address + i) low)
      Bus.write (.store (address + i + 4) high)
      flashWaitBusy
      let st ← flashCheckErrors
      if st ≠ .ok then do
        clearCr crPg
        flashLock
        pure st
      else programFrom address data count (i + 8)

/-- The read-back loop of `flash_write`. -/
def verifyFrom (address : UInt32) (data : Nat → UInt8) : Nat → UInt32 → Driver FlashStatus
  | 0, _ => pure .ok
  | count + 1, i => do
      let written ← readByte (address + i)
      if written ≠ data i.toNat then pure .errVerify
      else verifyFrom address data count (i + 1)

/-- `flash_write`; there are no bytes behind a null pointer. -/
def flashWrite (address : UInt32) (data? : Option (Nat → UInt8)) (len : UInt32) :
    Driver FlashStatus :=
  match data? with
  | none => pure .errAlign
  | some data =>
      if len = 0 then pure .errAlign
      else if address % 8 ≠ 0 ∨ len % 8 ≠ 0 then pure .errAlign
      else if ¬ addressInFlash address len then pure .errRange
      else do
        let sr ← readSr
        if sr &&& srBsy ≠ 0 then pure .errBusy
        else do
          let st ← flashUnlock
          if st ≠ .ok then pure st
          else do
            flashClearErrors
            setCr crPg
            let st ← programFrom address data (len.toNat / 8) 0
            if st ≠ .ok then pure st
            else do
              clearCr crPg
              flashLock
              verifyFrom address data len.toNat 0

end OtaBoot.FlashRegisters
