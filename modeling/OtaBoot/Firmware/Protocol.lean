import OtaBoot.Firmware.Crc
import OtaBoot.Foundation.Memory
import OtaBoot.Foundation.LittleEndian

/-!
# Frames and their assembly

The frame format of `shared/protocol.h` and the byte-at-a-time receiver of
`bootloader/src/protocol_mgr.c`. The receiver is separated from what a complete
frame causes: it consumes a byte and reports what that byte completed.
-/

namespace OtaBoot

open Storage LittleEndian

/-! ## Constants -/

def protoVersion : UInt8 := 1

def frameMagic0 : UInt8 := 0xAA
def frameMagic1 : UInt8 := 0x55

def frameHeaderSize : Nat := 7
def frameCrcSize : Nat := 4

def frameOffCmd : Nat := 2
def frameOffLength : Nat := 3
def frameOffSeq : Nat := 5
def frameOffData : Nat := 7

/-- `MAX_PAYLOAD_SIZE`, the plausibility bound on LENGTH. -/
def maxPayloadSize : UInt32 := 1024

def cmdGetInfo : UInt8 := 0x01
def cmdStartUpdate : UInt8 := 0x02
def cmdData : UInt8 := 0x03
def cmdEndUpdate : UInt8 := 0x04
def cmdAbort : UInt8 := 0x05

def rspInfo : UInt8 := 0x81
def rspAck : UInt8 := 0x82
def rspNack : UInt8 := 0x83

def errCrc : UInt8 := 0x01
def errSeq : UInt8 := 0x02
def errLength : UInt8 := 0x03
def errFlash : UInt8 := 0x04
def errSize : UInt8 := 0x05
def errSlot : UInt8 := 0x06
def errState : UInt8 := 0x07
def errGlobalCrc : UInt8 := 0x08
def errProtoVer : UInt8 := 0x09

def timeoutStartMs : UInt32 := 2000
def timeoutDataMs : UInt32 := 5000

/-! ## Transmission -/

/-- `send_frame`: the bytes of a frame. The CRC is computed in two chunks and
does not cover the magic. -/
def sendFrame (cmd : UInt8) (seq : UInt16) (data : List UInt8) : List UInt8 :=
  let len := UInt16.ofNat data.length
  let header := [frameMagic0, frameMagic1, cmd] ++ bytes16 len ++ bytes16 seq
  let crc := crc32Update (crc32Update crcInitValue (header.drop frameOffCmd)) data
  header ++ data ++ bytes32 crc

/-! ## Reception -/

/-- `rx_state_t`. -/
inductive RxState where
  | magic0
  | magic1
  | header
  | data
  | crc
  deriving DecidableEq, Repr

/-- The receiver: `rx_state`, `rx_frame`, `rx_index`, `rx_expected`. -/
structure Receiver where
  state : RxState
  frame : Memory UInt8
  index : UInt32
  expected : UInt32

/-- What the last byte of the receiver completed. -/
inductive RxEvent where
  /-- Nothing yet. -/
  | pending
  /-- A header that announces more than the buffer holds. -/
  | overlong
  /-- A frame whose CRC does not match. -/
  | badCrc (seq : UInt16)
  /-- A frame to dispatch. -/
  | frame (cmd : UInt8) (seq : UInt16) (data : List UInt8)
  deriving DecidableEq, Repr

namespace Receiver

/-- `rx_reset`. -/
def reset (rx : Receiver) : Receiver :=
  { rx with state := .magic0, index := 0, expected := 0 }

/-- `rx_frame[rx_index++] = byte; --rx_expected`. -/
def push (rx : Receiver) (byte : UInt8) : Receiver :=
  { rx with
    frame := rx.frame.store rx.index.toNat [byte]
    index := rx.index + 1
    expected := rx.expected - 1 }

/-- The LENGTH field of the buffered header. -/
def len (rx : Receiver) : UInt16 :=
  word16 (rx.frame frameOffLength) (rx.frame (frameOffLength + 1))

/-- The SEQ field of the buffered header. -/
def seq (rx : Receiver) : UInt16 :=
  word16 (rx.frame frameOffSeq) (rx.frame (frameOffSeq + 1))

/-- The received CRC, behind the payload. -/
def receivedCrc (rx : Receiver) : UInt32 :=
  let off := frameHeaderSize + rx.len.toNat
  word32 (rx.frame off) (rx.frame (off + 1)) (rx.frame (off + 2)) (rx.frame (off + 3))

/-- A buffered frame whose last CRC byte has arrived. -/
def complete (rx : Receiver) : RxEvent :=
  let computed := crc32Compute
    (rx.frame.read frameOffCmd (frameHeaderSize - frameOffCmd + rx.len.toNat))
  if computed = rx.receivedCrc then
    .frame (rx.frame frameOffCmd) rx.seq (rx.frame.read frameOffData rx.len.toNat)
  else .badCrc rx.seq

/-- `feed`, up to the point where a complete frame is acted on. -/
def feed (rx : Receiver) (byte : UInt8) : Receiver × RxEvent :=
  match rx.state with
  | .magic0 =>
      if byte = frameMagic0 then
        ({ rx with frame := rx.frame.store 0 [byte], state := .magic1 }, .pending)
      else (rx, .pending)
  | .magic1 =>
      if byte = frameMagic1 then
        ({ frame := rx.frame.store 1 [byte], index := 2,
           expected := UInt32.ofNat (frameHeaderSize - 2), state := .header }, .pending)
      else if byte = frameMagic0 then
        -- the second 0xAA of 0xAA 0xAA 0x55 may be the real start
        ({ rx with frame := rx.frame.store 0 [byte] }, .pending)
      else ({ rx with state := .magic0 }, .pending)
  | .header =>
      let rx := rx.push byte
      if rx.expected = 0 then
        -- LENGTH is believed only up to the size of the buffer
        if rx.len.toUInt32 > maxPayloadSize then (rx.reset, .overlong)
        else if rx.len = 0 then
          ({ rx with expected := UInt32.ofNat frameCrcSize, state := .crc }, .pending)
        else ({ rx with expected := rx.len.toUInt32, state := .data }, .pending)
      else (rx, .pending)
  | .data =>
      let rx := rx.push byte
      if rx.expected = 0 then
        ({ rx with expected := UInt32.ofNat frameCrcSize, state := .crc }, .pending)
      else (rx, .pending)
  | .crc =>
      let rx := rx.push byte
      if rx.expected = 0 then (rx.reset, rx.complete)
      else (rx, .pending)

end Receiver

end OtaBoot
