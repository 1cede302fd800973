import OtaBoot.Host.Link
import OtaBoot.Host.Transport

/-!
# The update tool and a board

The tool over a link whose far end is a board. A reliable channel brings the replies
with the frame, so that nothing more arrives while the tool waits.
-/

namespace OtaBoot.Host

open Raising LittleEndian

/-! ## A link as a wire -/

/-- Leave only these bytes to be read. -/
def Link.keep (inbox : List UInt8) (l : Link) : Link := { l with inbox }

theorem Link.inbox_keep (inbox : List UInt8) (l : Link) : (l.keep inbox).inbox = inbox := rfl

theorem Link.keep_keep (inbox inbox' : List UInt8) (l : Link) :
    (l.keep inbox').keep inbox = l.keep inbox := rfl

def Channel.wire (channel : Channel) : Wire Link where
  write raw l := l.write channel raw
  wait := id
  inbox := Link.inbox
  keep := Link.keep
  flush := Link.keep []
  sleep := id
  inbox_keep := Link.inbox_keep
  keep_keep := Link.keep_keep

/-! ## The tool -/

abbrev HostM := ToolM Link

variable (channel : Channel)

def send (frame : Frame) : HostM Unit := channel.wire.send frame

def exchange (frame : Frame) (attempts : Nat) : HostM Frame := channel.wire.exchange frame attempts

def sendBlocks (seq : Nat) (blocks : List (List UInt8)) : HostM (Option Nat) :=
  channel.wire.sendBlocks seq blocks

def sendFirmware (firmware : List UInt8) (slot version : Nat) : HostM Bool :=
  channel.wire.sendFirmware firmware slot version

/-- `_flush_input`. -/
def flushInput : HostM Unit := channel.wire.flushInput

/-- `receive`, which writes nothing, so that any channel will do. -/
def receive : HostM Frame := (Channel.wire fun _ _ => []).receive

/-! ## Frames that are acknowledged -/

section Receive

variable {l : Link} {cmd : UInt8} {seq : UInt16} {data more : List UInt8}

/-- Behind the first magic, a frame that the firmware has sent is received. -/
theorem returns_receive_found (hshort : data.length ≤ 1024)
    (hfound : afterMagic [] l.inbox = some (body cmd seq data ++ more)) :
    Returns receive l ⟨cmd.toNat, seq.toNat, data⟩ { l with inbox := more } :=
  Wire.returns_receive_found hshort hfound

/-- A frame that the firmware has sent is received. -/
theorem returns_receive (hshort : data.length ≤ 1024)
    (hinbox : l.inbox = sendFrame cmd seq data ++ more) :
    Returns receive l ⟨cmd.toNat, seq.toNat, data⟩ { l with inbox := more } :=
  Wire.returns_receive hshort hinbox

end Receive

/-- An exchange whose frame is acknowledged needs one attempt. -/
theorem returns_exchange {channel : Channel} {l : Link} {a : Action} {cmd : UInt8} {seq : UInt16}
    {data : List UInt8} (hlen : data.length ≤ 1024) (hinbox : l.inbox = []) (attempts : Nat)
    (h : l.Acknowledged channel a (sendFrame cmd seq data) seq) :
    Returns (exchange channel ⟨cmd.toNat, seq.toNat, data⟩ (attempts + 1)) l ⟨rspAck, seq.toNat, []⟩
      { l.write channel (sendFrame cmd seq data) with inbox := [] } := by
  have hack : (l.write channel (sendFrame cmd seq data)).inbox =
      sendFrame OtaBoot.rspAck seq [] ++ [] := by
    rw [h.inbox, hinbox, List.nil_append, List.append_nil]
  exact Wire.returns_exchange attempts hlen
    (returns_receive (by decide : [].length ≤ 1024) hack)

end OtaBoot.Host
