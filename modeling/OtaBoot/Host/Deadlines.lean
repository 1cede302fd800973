import OtaBoot.Host.Transport

/-!
# A link with a clock

What is written is answered after some time, and `receive` waits until a frame is
there or its deadline has passed. Bytes arrive in the order in which they were
sent, so that nothing arrives before what is on its way in front of it.
-/

namespace OtaBoot.Host

open LittleEndian

/-- Time in milliseconds, and bytes. -/
abbrev Arrival := Nat × List UInt8

/-- `receive` needs nothing more: it has a frame, or a header that none has. -/
def readable (inbox : List UInt8) : Bool :=
  match afterMagic [] inbox with
  | none => false
  | some rest =>
      let length := unpackField (rest.extract 1 3)
      decide (frameHeaderSize - 2 ≤ rest.length ∧
        (length > maxPayloadSize ∨ frameHeaderSize - 2 + length + frameCrcSize ≤ rest.length))

structure Clock where
  nowMs : Nat
  inbox : List UInt8
  /-- What is on its way, and when it arrives. -/
  coming : List Arrival
  /-- What the frames still to be written will be answered with, and after what time. -/
  answers : List (List Arrival)

namespace Clock

def write (_ : List UInt8) (s : Clock) : Clock where
  nowMs := s.nowMs
  inbox := s.inbox
  coming := s.coming ++
    (s.answers.head?.getD []).map fun arrival => (s.nowMs + arrival.1, arrival.2)
  answers := s.answers.tail

/-- One arrival after the other, as long as `receive` needs more and there is time. -/
def waitUntil (deadlineMs : Nat) (s : Clock) : List Arrival → Clock
  | [] => { s with nowMs := if readable s.inbox then s.nowMs else deadlineMs, coming := [] }
  | (timeMs, bytes) :: coming =>
      if readable s.inbox then { s with coming := (timeMs, bytes) :: coming }
      else if timeMs ≤ deadlineMs then
        waitUntil deadlineMs
          { s with nowMs := max s.nowMs timeMs, inbox := s.inbox ++ bytes } coming
      else { s with nowMs := deadlineMs, coming := (timeMs, bytes) :: coming }

def wait (ms : Nat) (s : Clock) : Clock := s.waitUntil (s.nowMs + ms) s.coming

def keep (bytes : List UInt8) (s : Clock) : Clock := { s with inbox := bytes }

/-- What has arrived is dropped. -/
def flush (s : Clock) : Clock :=
  { s with inbox := [], coming := s.coming.dropWhile fun arrival => arrival.1 ≤ s.nowMs }

/-- 0.05 seconds. -/
def sleep (s : Clock) : Clock := { s with nowMs := s.nowMs + 50 }

/-- Whose timeout is a second unless the tool is told otherwise. -/
def link (timeoutMs : Nat) : Timed Clock where
  timeoutMs
  within ms :=
    { write := write
      wait := wait ms
      inbox := Clock.inbox
      keep := keep
      flush := flush
      sleep := sleep
      inbox_keep := fun _ _ => rfl
      keep_keep := fun _ _ _ => rfl }

/-- All that can be read within the given time. -/
def due (ms : Nat) (s : Clock) : List UInt8 :=
  s.inbox ++ (s.coming.takeWhile fun arrival => arrival.1 ≤ s.nowMs + ms).flatMap Prod.snd

end Clock

end OtaBoot.Host
