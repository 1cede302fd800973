import Mathlib.Data.Nat.Basic
import Mathlib.Order.Basic
import OtaBoot.Foundation.Transition
import OtaBoot.Firmware.BootMain

/-!
# The board as a machine

The persistent state is the flash. A board is about to run `main`, is in
`update_mode`, or runs the application of a slot. One event is one thing that
happens to it: a boot, a poll of the protocol manager and each byte it drains,
the application's confirmation, a reset. Events carry everything the
environment decides, the fate of each flash operation included; a loss of power
during an event leaves the flash reached so far and a board that will boot.
-/

namespace OtaBoot

open Storage

/-- `update_mode` and the protocol manager under it. -/
structure Session where
  limitMs : UInt32
  start : UInt32
  /-- The slot `main` jumps to when `update_mode` returns. -/
  next : Option Slot
  proto : Protocol
  /-- Inside the drain of a poll: its time, the budget left, and whether a byte
  was received. -/
  drain : Option (UInt32 × Nat × Bool) := none

inductive Mode where
  | reset
  | update (session : Session)
  | app (slot : Slot)

structure Board where
  flash : Flash
  mode : Mode

inductive Event where
  /-- The board boots. The boot request flag and the clock are given. -/
  | boot (otaRequest : Bool) (start : UInt32) (faults : List Fault)
  /-- `update_mode` takes the time and starts a poll. -/
  | poll (nowMs : UInt32)
  /-- The poll drains one byte. -/
  | byte (byte : UInt8) (faults : List Fault)
  /-- The drain is over; the poll ends and `update_mode` makes its tests. -/
  | pollEnd
  /-- The running application confirms itself. -/
  | confirm (faults : List Fault)
  /-- Watchdog, reset button, or power cut while no flash operation is going on. -/
  | reset
  deriving DecidableEq, Repr

namespace Board

/-- What the board does once `main` has decided. -/
def booted (start : UInt32) : Boot → Mode
  | .updateMode limitMs next => .update { limitMs, start, next, proto := protocolInit }
  | .jump slot => .app slot

/-- What `update_mode` does at the end of a poll. -/
def polled (u : Session) (nowMs : UInt32) (received : Bool) : Mode :=
  let proto := u.proto.pollTail nowMs received
  match updateVerdict proto u.limitMs u.start nowMs with
  | .keepListening => .update { u with proto, drain := none }
  | .restarts => .reset
  | .returns =>
      match u.next with
      | some slot => .app slot
      -- update_mode(0) never returns
      | none => .reset

/-- A program that finishes leaves the board in a mode; a power cut leaves it
about to boot. -/
def settle {α : Type} (after : α → Mode) : Outcome α × World Flash FlashCall → Board
  | (.done a, w) => ⟨w.state, after a⟩
  | (.cut, w) => ⟨w.state, .reset⟩

@[simp] theorem settle_flash {α : Type} (after : α → Mode)
    (result : Outcome α × World Flash FlashCall) :
    (settle after result).flash = result.2.state := by
  obtain ⟨out, w⟩ := result
  cases out <;> rfl

/-- One event. An event that does not concern the present mode changes nothing. -/
def step (b : Board) : Event → Board
  | .boot otaRequest start faults =>
      match b.mode with
      | .reset => settle (booted start) ((bootMain otaRequest).run ⟨b.flash, faults, []⟩)
      | _ => b
  | .poll nowMs =>
      match b.mode with
      | .update u =>
          match u.drain with
          | none => ⟨b.flash, .update { u with drain := some (nowMs, uartRxBufferSize, false) }⟩
          | some _ => b
      | _ => b
  | .byte byte faults =>
      match b.mode with
      | .update u =>
          match u.drain with
          -- one byte at a time, while the budget lasts
          | some (nowMs, budget + 1, _) =>
              settle (fun proto => .update { u with proto, drain := some (nowMs, budget, true) })
                ((u.proto.feed byte).run ⟨b.flash, faults, []⟩)
          | _ => b
      | _ => b
  | .pollEnd =>
      match b.mode with
      | .update u =>
          match u.drain with
          | some (nowMs, _, received) => ⟨b.flash, polled u nowMs received⟩
          | none => b
      | _ => b
  | .confirm faults =>
      match b.mode with
      | .app slot => settle (fun _ => .app slot) ((confirmStartup slot).run ⟨b.flash, faults, []⟩)
      | _ => b
  | .reset => ⟨b.flash, .reset⟩

/-- The board after a list of events. -/
def run (b : Board) (events : List Event) : Board := Transition.run step b events

theorem run_append (b : Board) (front back : List Event) :
    b.run (front ++ back) = (b.run front).run back :=
  Transition.run_append b front back

theorem run_cons (b : Board) (e : Event) (events : List Event) :
    b.run (e :: events) = (b.step e).run events := rfl

/-- A board whose flash has never been programmed. -/
def blank : Board := ⟨fun _ => erasedByte, .reset⟩

end Board

end OtaBoot
