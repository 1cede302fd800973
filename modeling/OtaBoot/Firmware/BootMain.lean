import OtaBoot.Firmware.ProtocolMgr

/-!
# The boot decision and the application's confirmation

`main` of `bootloader/main.c` up to the point where it enters update mode or
jumps, the tests it makes on an image, and `confirm_startup` of `app/main.c`.
-/

namespace OtaBoot

open Storage

def bootWaitMs : UInt32 := 2000
def otaWaitMs : UInt32 := 30000

/-- The initial stack pointer lies in RAM, the reset handler in flash, and its
address is a Thumb address. -/
def slotLooksBootable (flash : Flash) (base : UInt32) : Bool :=
  let sp := wordAt flash base.toNat
  let reset := wordAt flash (base + 4).toNat
  if sp &&& 0xFFF00000 ≠ 0x20000000 then false
  else if reset < flashBaseAddr ∨ reset ≥ flashBaseAddr + flashTotalSize then false
  else if reset &&& 1 = 0 then false
  else true

def imageIsIntact (flash : Flash) (m : Metadata) (slot : Slot) : Bool :=
  let info := m.slot slot
  if info.size = 0 ∨ info.size > slotSize then false
  else
    let base := slot.addr
    if ¬ slotLooksBootable flash base then false
    else
      let computed := crc32Compute (flash.read base.toNat info.size.toNat)
      computed = info.crc32

/-- Where `main` gets to: `update_mode(limit_ms)`, followed by a jump when a
slot is given, or a jump at once. -/
inductive Boot where
  | updateMode (limitMs : UInt32) (next : Option Slot)
  | jump (slot : Slot)
  deriving DecidableEq, Repr

/-- The record of a rollback. -/
def rollbackRecord (m : Metadata) : Metadata :=
  let rejected := { m.slot m.active with state := stateEmpty }
  { m.setSlot m.active rejected with activeSlot := m.active.other.toByte, bootFailCount := 0 }

/-- The record of one more attempt. -/
def attemptRecord (m : Metadata) : Metadata :=
  { m with bootFailCount := m.bootFailCount + 1 }

/-- `main`. Every path that does not jump ends in `update_mode(0)`. -/
def bootMain (otaRequest : Bool) : FlashM Boot := do
  let listenMs := if otaRequest then otaWaitMs else bootWaitMs
  let flash ← Faulty.read
  match metadataRead flash with
  | none => pure (.updateMode 0 none)
  | some m =>
      let active := m.active
      let st := (m.slot active).state
      if st = stateValid then
        if imageIsIntact flash m active then pure (.updateMode listenMs (some active))
        else pure (.updateMode 0 none)
      else if st = stateTesting then
        if m.bootFailCount ≥ maxBootFailures then
          let other := active.other
          if (m.slot other).state = stateEmpty ∨ ¬ imageIsIntact flash m other then
            pure (.updateMode 0 none)
          else
            let written ← metadataWrite (rollbackRecord m)
            let flash ← Faulty.read
            if written = .ok ∧ slotLooksBootable flash other.addr then pure (.jump other)
            else pure (.updateMode 0 none)
        else if imageIsIntact flash m active then
          -- the outcome of the write is not looked at
          let _ ← metadataWrite (attemptRecord m)
          pure (.updateMode listenMs (some active))
        else pure (.updateMode 0 none)
      else pure (.updateMode 0 none)

/-- What `update_mode` does after a poll. -/
inductive UpdateVerdict where
  | keepListening
  | returns
  | restarts
  deriving DecidableEq, Repr

/-- The tests of `update_mode` that follow `protocol_poll(now)`. -/
def updateVerdict (p : Protocol) (limitMs start now : UInt32) : UpdateVerdict :=
  if p.state = .complete then .restarts
  else if limitMs > 0 ∧ p.state = .idle ∧ now - start > limitMs then .returns
  else .keepListening

/-- The record of a confirmed start-up. -/
def confirmRecord (m : Metadata) (selfSlot : Slot) : Metadata :=
  { m.setSlot selfSlot { m.slot selfSlot with state := stateValid } with bootFailCount := 0 }

/-- `confirm_startup` of the application that runs in a slot. -/
def confirmStartup (selfSlot : Slot) : FlashM Unit := do
  let flash ← Faulty.read
  match metadataRead flash with
  | none => pure ()
  | some m =>
      if (m.slot selfSlot).state = stateValid ∧ m.bootFailCount = 0 then pure ()
      else
        let _ ← metadataWrite (confirmRecord m selfSlot)
        pure ()

end OtaBoot
