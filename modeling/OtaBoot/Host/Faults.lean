import OtaBoot.Host.Update

/-!
# Faults of the link

A frame may arrive with some of its bytes altered. Both ends find the frame by
its magic and its LENGTH, which are intact, and reject it by its CRC: the board
with a NACK, the host with an exception. A link with faults alters a frame of
the host, or loses or alters a reply, as a schedule says.
-/

namespace OtaBoot.Host

open Storage Raising LittleEndian

/-- A frame arrives with another CMD, SEQ, DATA or CRC, so that the CRC does not
match. -/
inductive Damaged : List UInt8 → List UInt8 → Prop
  | mk {cmd cmd' : UInt8} {seq seq' : UInt16} {data data' : List UInt8} {crc : UInt32}
      (hshort : data.length ≤ 1024) (hlen : data'.length = data.length)
      (hcrc : crc32Compute (Receiver.covered cmd' seq' data') ≠ crc) :
      Damaged (sendFrame cmd seq data)
        (magic ++ (Receiver.covered cmd' seq' data' ++ bytes32 crc))

section Judgements

variable {raw arrived more : List UInt8}

/-- With its last byte a damaged frame is rejected. -/
theorem Damaged.feed (h : Damaged raw arrived) {rx : Receiver} (hstate : rx.Hunting) :
    ∃ front last rx' rx'' seq, arrived = front ++ [last] ∧ rx.Absorbs front rx' ∧
      rx'.feed last = (rx'', .badCrc seq) ∧ rx''.state = .magic0 := by
  cases h with
  | @mk _ cmd _ seq _ data crc hshort hlen hcrc =>
      rw [← hlen] at hshort
      obtain ⟨rx₂, hmagic, hfilled⟩ := Receiver.absorbs_magic hstate
      obtain ⟨front, last, rx', rx'', hbody, habsorbs, hfeed, hhunting⟩ := Receiver.feed_body cmd
        seq (Receiver.toNat_length_field hshort) hshort crc hfilled
      refine ⟨_, last, rx', rx'', seq, ?_, hmagic.append habsorbs, ?_, hhunting⟩
      · rw [List.append_assoc, ← hbody, Receiver.covered, List.append_assoc]
        rfl
      · rw [hfeed]
        exact congrArg _ (if_neg hcrc)

/-- The host raises `BadCRC` for a damaged frame, and has read it. -/
theorem Damaged.raises_receive (h : Damaged raw arrived) {σ : Type} {wire : Wire σ} {s : σ}
    (hinbox : wire.inbox (wire.wait s) = arrived ++ more) :
    Raises wire.receive s .badCrc (wire.keep more (wire.wait s)) := by
  cases h with
  | @mk _ cmd _ seq _ data crc hshort hlen hcrc =>
      rw [← hlen] at hshort
      have hfound : afterMagic [] (wire.inbox (wire.wait s)) = some (Receiver.headerBytes cmd seq
          (UInt16.ofNat data.length) ++ (data ++ bytes32 crc ++ more)) := by
        rw [hinbox, List.append_assoc, afterMagic_magic, Receiver.covered, List.append_assoc,
          List.append_assoc, List.append_assoc]
        rfl
      have hreceive :=
        Wire.run_receive_found (Receiver.toNat_length_field hshort) hshort hfound
      rw [decode_body cmd seq (Receiver.toNat_length_field hshort) hshort crc] at hreceive
      refine hreceive.trans ?_
      exact congrArg (fun judged => (judged, _)) (if_neg hcrc)

end Judgements

/-! ## A link with faults -/

/-- What goes wrong with a frame or its reply. -/
inductive LineFault where
  /-- These bytes reach the board. -/
  | damaged (arrived : List UInt8)
  | replyLost
  /-- The reply reaches the host like this. -/
  | replyDamaged (arrived : List UInt8 → List UInt8)

/-- The fault, if any, of each transmission of each frame, the first being
number 0. -/
abbrev FaultSchedule := List UInt8 → Nat → Option LineFault

/-- How often the frame was written before. -/
def Link.timesWritten (l : Link) (raw : List UInt8) : Nat := l.log.countP (·.1 = raw)

/-- `_write` over a channel that is reliable but for the faults. -/
def Link.transmit (channel : Channel) (faults : FaultSchedule) (l : Link) (raw : List UInt8) :
    Link :=
  match faults raw (l.timesWritten raw) with
  | none => l.write channel raw
  | some (.damaged arrived) =>
      let l' := l.write channel arrived
      { l' with log := l.log ++ [(raw, l'.proto.tx)] }
  | some .replyLost => { l.write channel raw with inbox := l.inbox }
  | some (.replyDamaged arrived) =>
      let l' := l.write channel raw
      { l' with inbox := l.inbox ++ arrived l'.proto.tx }

/-- The link with faults as a wire. -/
def Channel.faultyWire (channel : Channel) (faults : FaultSchedule) : Wire Link where
  write raw l := l.transmit channel faults raw
  wait := id
  inbox := Link.inbox
  keep := Link.keep
  flush := Link.keep []
  sleep := id
  inbox_keep := Link.inbox_keep
  keep_keep := Link.keep_keep

/-- Within an exchange of a START_UPDATE or a DATA frame, at most one
transmission is faulty; all others are intact. -/
structure FaultSchedule.OneEach (faults : FaultSchedule) : Prop where
  once : ∀ raw m n, (faults raw m).isSome → (faults raw n).isSome → m = n
  exchanges : ∀ raw n, (faults raw n).isSome → ∃ cmd seq data,
    raw = sendFrame cmd seq data ∧ (cmd = OtaBoot.cmdStartUpdate ∨ cmd = OtaBoot.cmdData)
  damaged : ∀ raw n arrived, faults raw n = some (.damaged arrived) → Damaged raw arrived
  replyDamaged : ∀ raw n arrived, faults raw n = some (.replyDamaged arrived) →
    ∀ cmd seq data, data.length ≤ 1024 →
      Damaged (sendFrame cmd seq data) (arrived (sendFrame cmd seq data))

end OtaBoot.Host
