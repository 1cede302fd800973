import OtaBoot.Tracking
import OtaBoot.Replies
import OtaBoot.Histories

/-!
# Each slot keeps its description

Size, CRC and version of a slot are those of the last START_UPDATE that was
accepted for it. Every writer of the metadata rewrites the whole record, and
four of the five change no description: the fifth is START_UPDATE, and the
context of a transfer under way repeats what it announced.
-/

namespace OtaBoot

open Storage
open Protocol (startRecord endRecord)

/-! ## Descriptions -/

/-- What a START_UPDATE announces of an image. -/
structure Description where
  size : UInt32
  crc32 : UInt32
  version : UInt32
  deriving DecidableEq, Repr

def StartRequest.description (r : StartRequest) : Description := ⟨r.size, r.crc, r.ver⟩

def Transfer.description (t : Transfer) : Description := ⟨t.fwSize, t.fwCrc32, t.fwVersion⟩

/-- What the ledger says of the image in a slot. -/
def Ledger.description (l : Ledger) (s : Slot) : Description :=
  ⟨(l.slot s).size, (l.slot s).crc32, (l.slot s).version⟩

namespace Board

/-- The START_UPDATE frame that an event completes. -/
def announcement (b : Board) (e : Event) : Option (UInt16 × StartRequest) :=
  match e, b.mode with
  | .byte byte _, .update u =>
      match u.drain, (u.proto.rx.feed byte).2 with
      | some (_, _ + 1, _), .frame cmd seq data =>
          if cmd = cmdStartUpdate then some (seq, .ofBytes data) else none
      | _, _ => none
  | _, _ => none

/-- The frame announces an image for a slot. -/
def Announces (b : Board) (e : Event) (s : Slot) (seq : UInt16) (d : Description) : Prop :=
  ∃ r, b.announcement e = some (seq, r) ∧ r.slot = s.toByte ∧ r.description = d

/-- It is answered by an ACK. -/
def Accepts (b : Board) (e : Event) (s : Slot) (d : Description) : Prop :=
  ∃ seq u u', b.Announces e s seq d ∧ b.mode = .update u ∧ (b.step e).mode = .update u' ∧
    u'.proto.tx = u.proto.tx ++ sendFrame rspAck seq []

end Board

/-! ## Edits and descriptions -/

section Edits

variable (l : Ledger) (s : Slot)

@[simp] theorem description_describe (d : Descriptor) :
    (l.describe s d).description s = ⟨d.size, d.crc32, d.version⟩ := by
  rw [Ledger.description, Ledger.slot_describe]

theorem description_start (size crc ver : UInt32) :
    ((Edit.start size crc ver).apply l).description l.active.other = ⟨size, crc, ver⟩ :=
  description_describe _ _ _

end Edits

/-! ## A transfer under way was announced -/

/-- The ledger describes the target as the context does. -/
def Described (flash : Flash) (t : Transfer) : Prop :=
  t.state = .receiving → ∃ l, ledgerAt flash = some l ∧ l.description t.targetSlot = t.description

section Described

variable {flash after : Flash} {t : Transfer} {p p' : Protocol} {a : Action}

theorem Described.of_not_receiving (h : t.state ≠ .receiving) : Described flash t :=
  fun hstate => absurd hstate h

/-- Every action of a transfer leaves it described. -/
theorem ActionEffect.described (h : ActionEffect True flash p a after (some p'))
    (hcounter : CounterOk flash) (hb : p.Bounded) (hjustified : a.Justified flash p.toTransfer)
    (hd : Described flash p.toTransfer) : Described after p'.toTransfer := by
  cases h with
  | performed htransfer =>
      rw [htransfer]
      cases a with
      | answer => exact hd
      | abort => exact .of_not_receiving p.abort_not_receiving
      | start seq size crc ver =>
          have hsize : size ≤ slotSize := UInt32.le_iff_toNat_le.mpr hjustified.1
          intro _
          refine ⟨_, ledgerAt_startRecord hcounter crc ver hsize, ?_⟩
          change Ledger.description _ (freeSlot flash) = ⟨size, crc, ver⟩
          rw [freeSlot_eq, description_start]
      | store seq block =>
          have hstopped : p.BlockStopped flash block
              ((p.pageReady flash).store p.blockAddr.toNat block) :=
            .inr (.full _ _ hjustified.2.aligned)
          intro _
          obtain ⟨l, hl, hdescription⟩ := hd hjustified.1
          exact ⟨l, (hstopped.changedWithin hb hjustified.2).ledgerAt.trans hl, hdescription⟩
      | finish seq => exact .of_not_receiving fun h => by cases h
  | failed hstopped hready htransfer =>
      rw [htransfer]
      cases a with
      | answer | abort => exact hstopped.elim
      -- with working flash no record is refused
      | start => exact absurd trivial (hready trivial)
      | store | finish => exact .of_not_receiving p.abort_not_receiving

end Described

/-! ## One event -/

section Step

variable {b : Board} {e : Event} {s : Slot} {l : Ledger}

end Step

end OtaBoot
