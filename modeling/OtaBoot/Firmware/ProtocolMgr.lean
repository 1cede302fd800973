import OtaBoot.Firmware.MetadataMgr
import OtaBoot.Firmware.Protocol
import OtaBoot.Firmware.Uart

/-!
# The protocol manager

The command handlers of `bootloader/src/protocol_mgr.c` over the transfer
context. The static variables are the fields of `Protocol`; they are lost at a
reset, and whatever a handler does to flash goes through `FlashM`. The bytes
handed to `uart_write` are collected in `tx`.
-/

namespace OtaBoot

open Storage LittleEndian

/-- `protocol_state_t`. -/
inductive ProtocolState where
  | idle
  | receiving
  | complete
  deriving DecidableEq, Repr

/-- The transfer context. -/
structure Transfer where
  state : ProtocolState
  expectedSeq : UInt16
  lastSeq : UInt16
  targetSlot : Slot
  fwSize : UInt32
  fwCrc32 : UInt32
  fwVersion : UInt32
  bytesWritten : UInt32
  deriving DecidableEq, Repr

/-- The static variables of the module. -/
structure Protocol extends Transfer where
  rx : Receiver
  lastActivityMs : UInt32
  timeoutMs : UInt32
  cntFramesOk : UInt32
  cntFramesKo : UInt32
  tx : List UInt8

def bootloaderVersion : UInt32 := 0x00000200

/-- `protocol_init`. -/
def protocolInit : Protocol where
  rx := { state := .magic0, frame := fun _ => 0, index := 0, expected := 0 }
  state := .idle
  expectedSeq := 0
  lastSeq := 0xFFFF
  targetSlot := .a
  fwSize := 0
  fwCrc32 := 0
  fwVersion := 0
  bytesWritten := 0
  lastActivityMs := 0
  timeoutMs := timeoutStartMs
  cntFramesOk := 0
  cntFramesKo := 0
  tx := []

/-- `abort_transfer`. -/
def Transfer.abort (t : Transfer) : Transfer :=
  { t with state := .idle, bytesWritten := 0, expectedSeq := 0, lastSeq := 0xFFFF }

/-- The context once `on_start_update` has accepted a transfer. -/
def Transfer.started (_ : Transfer) (seq : UInt16) (slot : Slot) (size crc ver : UInt32) :
    Transfer where
  targetSlot := slot
  fwSize := size
  fwCrc32 := crc
  fwVersion := ver
  bytesWritten := 0
  expectedSeq := seq + 1
  lastSeq := seq
  state := .receiving

/-- The context once `on_data` has stored a block. -/
def Transfer.advanced (t : Transfer) (seq : UInt16) (len : UInt32) : Transfer :=
  { t with bytesWritten := t.bytesWritten + len, lastSeq := seq, expectedSeq := seq + 1 }

namespace Protocol

/-! ## Replies and abort -/

def send (p : Protocol) (cmd : UInt8) (seq : UInt16) (data : List UInt8) : Protocol :=
  { p with tx := p.tx ++ sendFrame cmd seq data }

def sendAck (p : Protocol) (seq : UInt16) : Protocol := p.send rspAck seq []

def sendNack (p : Protocol) (seq : UInt16) (err : UInt8) : Protocol := p.send rspNack seq [err]

def abortTransfer (p : Protocol) : Protocol := { p with toTransfer := p.toTransfer.abort }

/-! ## Command handlers -/

def onGetInfo (p : Protocol) (seq : UInt16) : FlashM Protocol := do
  let flash ← Faulty.read
  let meta? := metadataRead flash
  let active := (meta?.map Metadata.active).getD .a
  let st := (meta?.map fun m => (m.slot m.active).state).getD stateEmpty
  let ver := (meta?.map fun m => (m.slot m.active).version).getD 0
  let payload := bytes32 ver ++ bytes32 bootloaderVersion ++
    [protoVersion, active.toByte, active.other.toByte, st]
  pure (p.send rspInfo seq payload)

/-- The record `on_start_update` asks for: the free slot is described anew and
marked as being received, everything else is kept. -/
def startRecord (flash : Flash) (slot : Slot) (size crc ver : UInt32) : Metadata :=
  let current := metadataRead flash
  let active := (current.map Metadata.active).getD .a
  let updated := current.getD .zero
  let updated := { updated with activeSlot := active.toByte }
  updated.setSlot slot
    { updated.slot slot with size := size, crc32 := crc, version := ver, state := stateInProgress }

def onStartUpdate (p : Protocol) (seq : UInt16) (data : List UInt8) : FlashM Protocol := do
  if data.length ≠ 16 then pure (p.sendNack seq errLength)
  else
    let byte (i : Nat) : UInt8 := data.getD i 0
    let size := word32 (byte 0) (byte 1) (byte 2) (byte 3)
    let crc := word32 (byte 4) (byte 5) (byte 6) (byte 7)
    let ver := word32 (byte 8) (byte 9) (byte 10) (byte 11)
    let slot := byte 12
    let proto := byte 13
    if proto ≠ protoVersion then pure (p.sendNack seq errProtoVer)
    else
      let flash ← Faulty.read
      let active := ((metadataRead flash).map Metadata.active).getD .a
      let free := active.other
      -- everything is checked before anything is written
      if size = 0 ∨ size > slotSize then pure (p.sendNack seq errSize)
      else if slot ≠ free.toByte then pure (p.sendNack seq errSlot)
      else
        let st ← metadataWrite (startRecord flash free size crc ver)
        if st ≠ .ok then pure (p.sendNack seq errFlash)
        else
          let p := { p with
            toTransfer := p.toTransfer.started seq free size crc ver
            timeoutMs := timeoutDataMs }
          pure (p.sendAck seq)

def onData (p : Protocol) (seq : UInt16) (data : List UInt8) : FlashM Protocol := do
  let len := UInt32.ofNat data.length
  if p.state ≠ .receiving then pure (p.sendNack seq errState)
  -- a block sent again: its ACK was lost
  else if seq = p.lastSeq then pure (p.sendAck seq)
  else if seq ≠ p.expectedSeq then pure (p.sendNack seq errSeq).abortTransfer
  else if len = 0 ∨ len % 8 ≠ 0 then pure (p.sendNack seq errLength)
  else
    let offset := p.bytesWritten
    if offset + len > p.fwSize then pure (p.sendNack seq errSize).abortTransfer
    else
      let addr := p.targetSlot.addr + offset
      -- a page is erased when its first block comes
      let st ← if offset % flashPageSize = 0 then flashErasePage addr else pure .ok
      if st ≠ .ok then pure (p.sendNack seq errFlash).abortTransfer
      else
        let st ← flashWrite addr data
        if st ≠ .ok then pure (p.sendNack seq errFlash).abortTransfer
        else
          pure ({ p with toTransfer := p.toTransfer.advanced seq len }.sendAck seq)

/-- The record `on_end_update` asks for: the target slot becomes active, with
the announced description, on trial. -/
def endRecord (flash : Flash) (slot : Slot) (size crc ver : UInt32) : Metadata :=
  let updated := (metadataRead flash).getD .zero
  let updated := { updated with activeSlot := slot.toByte, bootFailCount := 0 }
  updated.setSlot slot
    { updated.slot slot with size := size, crc32 := crc, version := ver, state := stateTesting }

def onEndUpdate (p : Protocol) (seq : UInt16) : FlashM Protocol := do
  if p.state ≠ .receiving then pure (p.sendNack seq errState)
  else if p.bytesWritten ≠ p.fwSize then pure (p.sendNack seq errSize).abortTransfer
  else
    let flash ← Faulty.read
    -- the image is read back whole
    let computed := crc32Compute (flash.read p.targetSlot.addr.toNat p.fwSize.toNat)
    if computed ≠ p.fwCrc32 then pure (p.sendNack seq errGlobalCrc).abortTransfer
    else
      let st ← metadataWrite (endRecord flash p.targetSlot p.fwSize p.fwCrc32 p.fwVersion)
      if st ≠ .ok then pure (p.sendNack seq errFlash).abortTransfer
      else pure { p.sendAck seq with state := .complete }

def dispatch (p : Protocol) (cmd : UInt8) (seq : UInt16) (data : List UInt8) : FlashM Protocol :=
  let p := { p with cntFramesOk := p.cntFramesOk + 1 }
  if cmd = cmdGetInfo then p.onGetInfo seq
  else if cmd = cmdStartUpdate then p.onStartUpdate seq data
  else if cmd = cmdData then p.onData seq data
  else if cmd = cmdEndUpdate then p.onEndUpdate seq
  else if cmd = cmdAbort then pure (p.abortTransfer.sendAck seq)
  else pure (p.sendNack seq errState)

/-! ## Bytes -/

/-- What a completed frame causes. -/
def handle (p : Protocol) : RxEvent → FlashM Protocol
  | .pending => pure p
  | .overlong => pure { p with cntFramesKo := p.cntFramesKo + 1 }
  | .badCrc seq => pure ({ p with cntFramesKo := p.cntFramesKo + 1 }.sendNack seq errCrc)
  | .frame cmd seq data => p.dispatch cmd seq data

/-- `feed`: one received byte. -/
def feed (p : Protocol) (byte : UInt8) : FlashM Protocol :=
  { p with rx := (p.rx.feed byte).1 }.handle (p.rx.feed byte).2

/-- The bounded drain of `protocol_poll`: the bytes `uart_getc` hands out, while
the budget lasts. The flag tells whether there was one. -/
def drain (p : Protocol) (budget : Nat) (received : Bool) : List UInt8 → FlashM (Protocol × Bool)
  | [] => pure (p, received)
  | byte :: bytes =>
      match budget with
      | 0 => pure (p, received)
      | budget + 1 => do
          let p ← p.feed byte
          p.drain budget true bytes

/-- `protocol_poll` after the drain: the inactivity timer. -/
def pollTail (p : Protocol) (nowMs : UInt32) (received : Bool) : Protocol :=
  if received then { p with lastActivityMs := nowMs }
  else if p.state = .receiving then
    if nowMs - p.lastActivityMs > p.timeoutMs then
      { p.abortTransfer with lastActivityMs := nowMs }
    else p
  else p

/-- `protocol_poll`, on the bytes that are there to be drained. -/
def poll (p : Protocol) (nowMs : UInt32) (bytes : List UInt8) : FlashM Protocol := do
  let (p, received) ← p.drain uartRxBufferSize false bytes
  pure (p.pollTail nowMs received)

end Protocol

end OtaBoot
