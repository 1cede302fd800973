import OtaBoot.Firmware.AppMain
import OtaBoot.System

/-!
# The whole device

The board together with what outlives a reset in RAM, the boot request word, and
with the main loop of the application that runs. The boot request is no longer
given from outside: the bootloader finds the word and clears it, the application
and the debugger set it, and loss of power leaves anything there. A device makes
the steps of a board, `Device.run_board`.
-/

namespace OtaBoot

open Storage App

structure Device where
  board : Board
  hw : Hardware
  loop : Loop

inductive DeviceEvent where
  /-- The board boots. -/
  | boot (start : UInt32) (faults : List Fault)
  | poll (nowMs : UInt32)
  | byte (byte : UInt8) (faults : List Fault)
  | pollEnd
  /-- One pass of the application's loop. A pass that does not get to its end
  before the schedule does is cut short by a reset. -/
  | pass (schedule : List (Turn App.Move)) (faults : List Fault)
  /-- A reset that RAM outlives: watchdog, reset button. -/
  | reset
  /-- Power comes back, and the word is whatever it is. -/
  | powerUp (word : UInt32)
  /-- `trigger_via_swd` of `tools/ota_flash.py`. -/
  | debugger

namespace Device

/-- `boot_request_pending`. -/
def pending (d : Device) : Bool := d.hw.request = bootRequestMagic

/-- `boot_request_clear`, when it is called. -/
def clearRequest (d : Device) : Device :=
  if d.pending then { d with hw := { d.hw with request := 0 } } else d

/-- The bootloader goes on as the board does. An application that it jumps to
starts from the beginning. -/
def follow (d : Device) (board : Board) : Device :=
  match board.mode with
  | .app _ => ⟨board, uartInit d.hw, .start⟩
  | _ => { d with board }

/-- The confirmation of a pass that makes one, and the refresh. -/
def finishPass (d : Device) (slot : Slot) (work : UInt32) (faults : List Fault) : Device :=
  if d.loop.confirms then
    match (confirmStartup slot).run ⟨d.board.flash, faults, []⟩ with
    | (.done _, w) =>
        ⟨⟨w.state, .app slot⟩, d.hw.feedIf work, { d.loop with confirmed := true }⟩
    | (.cut, w) => { d with board := ⟨w.state, .reset⟩ }
  else { d with hw := d.hw.feedIf work }

def step (d : Device) : DeviceEvent → Device
  | .boot start faults =>
      match d.board.mode with
      | .reset => d.clearRequest.follow (d.board.step (.boot d.pending start faults))
      | _ => d
  | .poll nowMs => { d with board := d.board.step (.poll nowMs) }
  | .byte byte faults => { d with board := d.board.step (.byte byte faults) }
  | .pollEnd =>
      match d.board.mode with
      | .update _ => d.follow (d.board.step .pollEnd)
      | _ => d
  | .pass schedule faults =>
      match d.board.mode with
      | .app slot =>
          match (appPass d.loop).run d.hw schedule with
          | (hw, some ((loop, .goesOn work), _)) =>
              finishPass ⟨d.board, hw, loop⟩ slot work faults
          | (hw, some ((loop, .handsOver), _)) => ⟨⟨d.board.flash, .reset⟩, hw, loop⟩
          | (hw, none) => { d with board := ⟨d.board.flash, .reset⟩, hw }
      | _ => d
  | .reset => { d with board := d.board.step .reset }
  | .powerUp word =>
      { d with board := d.board.step .reset, hw := { d.hw with request := word } }
  | .debugger =>
      { d with board := d.board.step .reset, hw := { d.hw with request := bootRequestMagic } }

def run (d : Device) (events : List DeviceEvent) : Device := Transition.run step d events

/-! ## The board inside -/

/-- What happens to the board in one event of the device. -/
def boardEvents (d : Device) : DeviceEvent → List Event
  | .boot start faults => [.boot d.pending start faults]
  | .poll nowMs => [.poll nowMs]
  | .byte byte faults => [.byte byte faults]
  | .pollEnd => [.pollEnd]
  | .pass schedule faults =>
      match d.board.mode with
      | .app _ =>
          match (appPass d.loop).run d.hw schedule with
          | (_, some ((loop, .goesOn _), _)) => if loop.confirms then [.confirm faults] else []
          | _ => [.reset]
      | _ => []
  | .reset | .powerUp _ | .debugger => [.reset]

/-- What happens to the board in a run of the device. -/
def boardRun (d : Device) : List DeviceEvent → List Event
  | [] => []
  | e :: events => d.boardEvents e ++ (d.step e).boardRun events

theorem follow_board (d : Device) (board : Board) : (d.follow board).board = board := by
  unfold follow
  split <;> rfl

theorem step_board (d : Device) (e : DeviceEvent) :
    (d.step e).board = d.board.run (d.boardEvents e) := by
  cases e with
  | boot start faults =>
      simp only [step, boardEvents, Board.run, Transition.run, Board.step]
      cases hmode : d.board.mode with
      | reset => exact follow_board _ _
      | update | app => rfl
  | poll | byte | reset | powerUp | debugger => rfl
  | pollEnd =>
      simp only [step, boardEvents, Board.run, Transition.run, Board.step]
      cases hmode : d.board.mode with
      | update => exact follow_board _ _
      | reset | app => rfl
  | pass schedule faults =>
      simp only [step, boardEvents]
      cases hmode : d.board.mode with
      | reset | update => rfl
      | app slot =>
          dsimp only
          rcases (appPass d.loop).run d.hw schedule with ⟨hw, _ | ⟨⟨loop, _ | work⟩, rest⟩⟩
          · rfl
          · rfl
          · simp only [finishPass]
            split
            · simp only [Board.run, Transition.run, Board.step, hmode, Board.settle]
              rcases (confirmStartup slot).run ⟨d.board.flash, faults, []⟩ with ⟨_ | _, w⟩ <;> rfl
            · rfl

/-- An event of the device is at most one of its board. -/
theorem boardEvents_cases (d : Device) (e : DeviceEvent) :
    d.boardEvents e = [] ∨ ∃ e', d.boardEvents e = [e'] := by
  unfold boardEvents
  cases e with
  | boot | poll | byte | pollEnd | reset | powerUp | debugger => exact .inr ⟨_, rfl⟩
  | pass schedule faults =>
      dsimp only
      split
      · split
        · split
          · exact .inr ⟨_, rfl⟩
          · exact .inl rfl
        · exact .inr ⟨_, rfl⟩
      · exact .inl rfl

/-- A run of the device is one of its board. -/
theorem run_board (d : Device) (events : List DeviceEvent) :
    (d.run events).board = d.board.run (d.boardRun events) := by
  induction events generalizing d with
  | nil => rfl
  | cons e events ih =>
      rw [boardRun, Board.run_append, ← step_board]
      exact ih (d.step e)

/-! ## A device that was just started -/

/-- The application in slot A of a board without metadata, on entering its loop,
after power came on. -/
def awake : Device :=
  ⟨⟨Board.blank.flash, .app .a⟩, uartInit ⟨0, true, ⟨none, none, []⟩, none, false, 0, [], 0, []⟩,
    .start⟩

/-- A trigger byte comes in, and the transmitter keeps up with the program. -/
def heldLine (turns : Nat) : List (Turn App.Move) :=
  .device (.arrives otaTriggerByte) ::
    (List.replicate turns [.device .shifts, .device .shifts, .program]).flatten

theorem device_of_heldLine {turns : Nat} {m : App.Move} (h : .device m ∈ heldLine turns) :
    m = .arrives otaTriggerByte ∨ m = .shifts := by
  rw [heldLine, List.mem_cons] at h
  rcases h with h | h
  · exact .inl (Turn.device.inj h)
  · obtain ⟨turn, hturn, hmem⟩ := List.mem_flatten.mp h
    rw [List.eq_of_mem_replicate hturn] at hmem
    simp only [List.mem_cons, Turn.device.injEq, reduceCtorEq, List.not_mem_nil, or_false,
      or_self] at hmem
    exact .inr hmem

end Device

/-- A poll and what it drains start no application. -/
theorem Board.app_of_poll {b : Board} {slot : Slot} {e : Event}
    (hevent : (∃ nowMs, e = .poll nowMs) ∨ ∃ byte faults, e = .byte byte faults)
    (h : (b.step e).mode = .app slot) : b.mode = .app slot := by
  cases hmode : b.mode with
  | app running =>
      rcases hevent with ⟨nowMs, rfl⟩ | ⟨byte, faults, rfl⟩ <;>
      · simp only [Board.step, hmode] at h
        exact h
  | reset =>
      rcases hevent with ⟨nowMs, rfl⟩ | ⟨byte, faults, rfl⟩ <;>
      · simp only [Board.step, hmode] at h
        cases h
  | update u =>
      rcases hevent with ⟨nowMs, rfl⟩ | ⟨byte, faults, rfl⟩
      · simp only [Board.step, hmode] at h
        split at h
        · cases h
        · rw [hmode] at h
          cases h
      · simp only [Board.step, hmode] at h
        split at h
        next =>
          rcases hrun : (u.proto.feed byte).run ⟨b.flash, faults, []⟩ with ⟨_ | _, w⟩ <;>
          · rw [hrun] at h
            cases h
        next =>
          rw [hmode] at h
          cases h

end OtaBoot
