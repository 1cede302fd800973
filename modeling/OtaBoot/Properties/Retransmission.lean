import OtaBoot.Replies
import OtaBoot.Histories

/-!
# A frame that comes twice

The host sends a frame again when the answer does not come in time, so that the
board may have acted on it already. The second copy finds the context and the
flash that the first one left, and changes neither: a START_UPDATE describes the
free slot as it is described, a block was stored last, a transfer that was
finished or dropped is no longer under way.
-/

namespace OtaBoot

open Storage
open Protocol (startRecord endRecord)

/-- The fields of a record that say something; its counter, and the CRC that
covers the counter, do not count. -/
def Metadata.logical (m : Metadata) : Metadata := { m with counter := 0, metaCrc32 := 0 }

/-- The record in force says the same, and the slots hold the same. -/
structure SameContents (flash flash' : Flash) : Prop where
  metadata : (metadataRead flash').map Metadata.logical = (metadataRead flash).map Metadata.logical
  slots : ∀ s : Slot, Memory.AgreeOn s.addr.toNat 491520 flash' flash

theorem SameContents.refl (flash : Flash) : SameContents flash flash :=
  ⟨rfl, fun _ => .refl _ _ _⟩

/-! ## Writing a record again -/

section Records

variable {flash : Flash} {src src' : Metadata}

/-- What is written says what the ledger says. -/
theorem logical_stamped (h : src.Sound) (h' : src'.Sound) (hledger : src'.ledger = src.ledger)
    (counter counter' : UInt32) :
    (src'.stamped counter').logical = (src.stamped counter).logical := by
  have hactive : src'.activeSlot = src.activeSlot := by
    rw [← h.toByte_active, ← h'.toByte_active]
    exact congrArg (fun l => l.active.toByte) hledger
  have hcount : src'.bootFailCount = src.bootFailCount := congrArg Ledger.bootFailCount hledger
  have hslot (s : Slot) : (src'.slot s).carried = (src.slot s).carried := by
    have hdescriptor : (src'.slot s).descriptor = (src.slot s).descriptor :=
      congrArg (fun l => l.slot s) hledger
    simp only [SlotInfo.descriptor, Descriptor.mk.injEq] at hdescriptor
    obtain ⟨hsize, hcrc, hversion, hstate⟩ := hdescriptor
    rw [SlotInfo.carried, SlotInfo.carried, hsize, hcrc, hversion, hstate]
  have hslotA : src'.slotA.carried = src.slotA.carried := hslot .a
  have hslotB : src'.slotB.carried = src.slotB.carried := hslot .b
  simp only [Metadata.logical, Metadata.stamped, hactive, hcount, hslotA, hslotB]

theorem start_start (l : Ledger) (size crc ver : UInt32) :
    (Edit.start size crc ver).apply ((Edit.start size crc ver).apply l) =
      (Edit.start size crc ver).apply l := by
  refine Ledger.ext rfl rfl (funext fun s => ?_)
  by_cases h : s = l.active.other <;> simp [Edit.apply, Ledger.describe, h]

variable {size : UInt32} (crc ver : UInt32)

/-- Describing the free slot again says nothing new. -/
theorem sameContents_startImage (hsize : size ≤ slotSize) :
    SameContents (startImage flash size crc ver)
      (startImage (startImage flash size crc ver) size crc ver) := by
  set flash₁ := startImage flash size crc ver with hflash₁
  have hsound := startRecord_sound flash (freeSlot flash) crc ver hsize
  have hsound₁ := startRecord_sound flash₁ (freeSlot flash₁) crc ver hsize
  refine ⟨?_, fun s => (completeImage_stopped _ _).agreeOn (by have := s.addr_bounds; omega)⟩
  by_cases hcounter : CounterOk flash
  · have hread₁ := metadataRead_completeImage hcounter hsound
    rcases (completeImage_stopped flash₁ _).metadataRead with hold | ⟨-, -, hnew⟩
    · rw [startImage, hold]
    · -- both copies wrote the ledger that the first one made
      have hledger : (startRecord flash₁ (freeSlot flash₁) size crc ver).ledger =
          (startRecord flash (freeSlot flash) size crc ver).ledger := by
        have hledger₁ : ledgerAt flash₁ = _ := ledgerAt_of_read hread₁
        rw [startRecord_ledger, ledgerOrBlank_of_ledgerAt hledger₁, writtenRecord_ledger,
          startRecord_ledger, start_start]
      rw [startImage, hnew, hflash₁, startImage, hread₁, Option.map_some, Option.map_some]
      exact congrArg some (logical_stamped hsound hsound₁ hledger _ _)
  · -- no counter is left: the old record stays in force both times
    simp only [CounterOk, not_forall] at hcounter
    obtain ⟨old, hold, hlast⟩ := hcounter
    have hlt := old.counter.toNat_lt
    have hwrap : old.counter.toNat = 2 ^ 32 - 1 := by omega
    have hread₁ : metadataRead flash₁ = some old := metadataRead_completeImage_wrapped hold hwrap
      hsound
    rw [startImage, metadataRead_completeImage_wrapped hread₁ hwrap hsound₁, hread₁]

end Records

/-! ## Deciding again -/

/-- A frame that changes nothing that counts. -/
structure Harmless (flash : Flash) (t : Transfer) (cmd : UInt8) (seq : UInt16)
    (data : List UInt8) : Prop where
  ready : (t.action flash cmd seq data).Ready flash t
  transfer : (t.action flash cmd seq data).success flash t = t
  contents : SameContents flash ((t.action flash cmd seq data).image flash t)

section Decisions

variable {flash after : Flash} {t : Transfer} {p p' : Protocol} {cmd : UInt8} {seq : UInt16}
  {data : List UInt8}

theorem Harmless.of_answer (h : t.action flash cmd seq data = .answer) :
    Harmless flash t cmd seq data := by
  constructor <;> rw [h]
  · trivial
  · rfl
  · exact .refl _

/-- Without a transfer, blocks and ends are refused. -/
theorem Harmless.of_not_receiving (hstate : t.state ≠ .receiving)
    (hcmd : cmd = cmdData ∨ cmd = cmdEndUpdate) : Harmless flash t cmd seq data := by
  refine .of_answer ?_
  rcases hcmd with rfl | rfl <;> exact if_pos hstate

/-- A transfer that was dropped may be dropped again. -/
theorem Harmless.of_abort (flash : Flash) (t : Transfer) (seq : UInt16) (data : List UInt8)
    (hcmd : cmd = cmdData ∨ cmd = cmdEndUpdate ∨ cmd = cmdAbort) :
    Harmless flash t.abort cmd seq data := by
  rcases hcmd with hcmd | hcmd | rfl
  · exact .of_not_receiving t.abort_not_receiving (.inl hcmd)
  · exact .of_not_receiving t.abort_not_receiving (.inr hcmd)
  · exact ⟨trivial, rfl, .refl _⟩

/-- A block that was stored last is not stored again. -/
theorem Harmless.of_stored (hlast : seq = t.lastSeq) : Harmless flash t cmdData seq data :=
  .of_answer (Transfer.action_repeated _ _ hlast)

/-- Flash after a START_UPDATE has the same slot free, so that it is accepted again. -/
theorem action_start_again (t : Transfer) (hlen : data.length = 16)
    (haccept : (StartRequest.ofBytes data).Acceptable flash) :
    t.action (startImage flash (StartRequest.ofBytes data).size (StartRequest.ofBytes data).crc
        (StartRequest.ofBytes data).ver) cmdStartUpdate seq data =
      .start seq (StartRequest.ofBytes data).size (StartRequest.ofBytes data).crc
        (StartRequest.ofBytes data).ver := by
  obtain ⟨hproto, hsize, hslot⟩ := haccept
  have hle := UInt32.not_lt.mp (not_or.mp hsize).2
  have haccept' : (StartRequest.ofBytes data).Acceptable (startImage flash
      (StartRequest.ofBytes data).size (StartRequest.ofBytes data).crc
      (StartRequest.ofBytes data).ver) :=
    ⟨hproto, hsize, by rw [freeSlot_startImage _ _ hle]; exact hslot⟩
  rw [Transfer.action_cmdStartUpdate, if_pos ⟨hlen, haccept'⟩]

theorem Harmless.of_start (t : Transfer) (hlen : data.length = 16)
    (haccept : (StartRequest.ofBytes data).Acceptable flash) :
    Harmless (startImage flash (StartRequest.ofBytes data).size (StartRequest.ofBytes data).crc
        (StartRequest.ofBytes data).ver)
      (t.started seq (freeSlot flash) (StartRequest.ofBytes data).size
        (StartRequest.ofBytes data).crc (StartRequest.ofBytes data).ver)
      cmdStartUpdate seq data := by
  have hle := UInt32.not_lt.mp (not_or.mp haccept.2.1).2
  constructor <;> rw [action_start_again _ hlen haccept]
  · trivial
  · rw [Action.success, freeSlot_startImage _ _ hle]
    rfl
  · exact sameContents_startImage _ _ hle

/-- Whatever a frame did, the same frame after it is harmless. -/
theorem ActionEffect.harmless
    (h : ActionEffect True flash p (p.toTransfer.action flash cmd seq data) after (some p')) :
    Harmless after p'.toTransfer cmd seq data := by
  have hdecided := p.toTransfer.action_decided flash cmd seq data
  generalize haction : p.toTransfer.action flash cmd seq data = a at h hdecided
  cases h with
  | performed htransfer =>
      rw [htransfer]
      cases hdecided with
      | answer => exact .of_answer haction
      | abort hcmd => exact .of_abort _ _ _ _ hcmd
      | start hlen haccept => exact .of_start p.toTransfer hlen haccept
      | store => exact .of_stored rfl
      | finish => exact .of_not_receiving (fun h => by cases h) (.inr rfl)
  | failed hstopped hready htransfer =>
      rw [htransfer]
      cases hdecided with
      | answer | abort => exact hstopped.elim
      | store => exact .of_abort _ _ _ _ (.inl rfl)
      -- a record is programmed into an erased page
      | start | finish => exact absurd trivial (hready trivial)

end Decisions

/-! ## Answering again -/

section Answering

variable {flash after : Flash} {p p' : Protocol} {cmd : UInt8} {seq : UInt16} {data : List UInt8}

theorem dispatch_abort (p : Protocol) (seq : UInt16) (data : List UInt8) :
    p.dispatch cmdAbort seq data =
      pure ({ p with cntFramesOk := p.cntFramesOk + 1 }.abortTransfer.sendAck seq) := rfl

/-- An ACK for a block says that it is the one stored last. -/
theorem Answer.of_data_ack {w : World Flash FlashCall} (hb : p.Bounded) (hlen : data.length < 65536)
    (hrun : (p.dispatch cmdData seq data).run ⟨flash, [], []⟩ = (.done p', w))
    (h : Answer flash p cmdData seq data p' w.state)
    (hack : p'.tx = p.tx ++ sendFrame rspAck seq []) :
    p'.state = .receiving ∧ seq = p'.lastSeq := by
  rcases h.of_ack hack with ⟨hacks, -, htransfer⟩ | ⟨-, hstate, hseq⟩ | hcmd | hcmd
  · have hjustified : (p.toTransfer.action flash cmdData seq data).Justified flash p.toTransfer :=
      Transfer.action_justified hb hlen
    have hdecided := p.toTransfer.action_decided flash cmdData seq data
    generalize p.toTransfer.action flash cmdData seq data = a at hacks htransfer hjustified hdecided
    generalize hcmd : cmdData = cmd at hdecided
    cases hdecided with
    | answer | abort => cases hacks
    | store =>
        rw [htransfer]
        exact ⟨hjustified.1, rfl⟩
    | start | finish => exact absurd hcmd (by decide)
  · -- it was stored before
    rw [dispatch_stored hstate hseq] at hrun
    cases hrun
    exact ⟨hstate, hseq⟩
  all_goals exact absurd hcmd (by decide)

/-- An accepted START_UPDATE, block or ABORT is accepted again. -/
theorem acked_again {w w' : World Flash FlashCall} {p'' : Protocol} (hb : p.Bounded)
    (hlen : data.length < 65536)
    (hrun : (p.dispatch cmd seq data).run ⟨flash, [], []⟩ = (.done p', w))
    (hanswer : Answer flash p cmd seq data p' w.state)
    (hack : p'.tx = p.tx ++ sendFrame rspAck seq [])
    (hcmd : cmd = cmdStartUpdate ∨ cmd = cmdData ∨ cmd = cmdAbort)
    (hrun' : (p'.dispatch cmd seq data).run ⟨w.state, [], []⟩ = (.done p'', w'))
    (heffect' : ActionEffect True w.state p' (p'.toTransfer.action w.state cmd seq data)
      w'.state (some p'')) :
    p''.tx = p'.tx ++ sendFrame rspAck seq [] := by
  rcases hcmd with rfl | rfl | rfl
  · obtain ⟨hlength, haccept, himage, -⟩ := hanswer.of_start_ack hack
    rw [himage, action_start_again _ hlength haccept] at heffect'
    generalize w'.state = after at heffect'
    cases heffect' with
    | performed _ _ htx => exact htx seq rfl
    | failed _ hready => exact absurd trivial (hready trivial)
  · obtain ⟨hstate, hlast⟩ := Answer.of_data_ack hb hlen hrun hanswer hack
    rw [dispatch_stored hstate hlast] at hrun'
    cases hrun'
    rfl
  · rw [dispatch_abort] at hrun'
    cases hrun'
    rfl

end Answering

/-! ## The result -/

/-- A frame that comes twice, whatever it asks for and whatever becomes of it,
leaves what it leaves when it comes once, and an ACK comes twice with it. -/
theorem retransmission_harmless (flash₀ : Flash) {events : List Event} {flash : Flash}
    {u : Session} (hreach : (⟨flash₀, .reset⟩ : Board).run events = ⟨flash, .update u⟩)
    (cmd : UInt8) (seq : UInt16) (data : List UInt8) (hlen : data.length ≤ 1024) :
    ∃ p₁ w₁ p₂ w₂,
      (u.proto.dispatch cmd seq data).run ⟨flash, [], []⟩ = (.done p₁, w₁) ∧
      (p₁.dispatch cmd seq data).run ⟨w₁.state, [], []⟩ = (.done p₂, w₂) ∧
      p₂.toTransfer = p₁.toTransfer ∧ SameContents w₁.state w₂.state ∧
      (cmd = cmdStartUpdate ∨ cmd = cmdData ∨ cmd = cmdAbort →
        p₁.tx = u.proto.tx ++ sendFrame rspAck seq [] →
        p₂.tx = p₁.tx ++ sendFrame rspAck seq []) := by
  have hshort : data.length < 65536 := by omega
  have hb : u.proto.Bounded := by
    have hbounded := Board.bounded_run (Board.bounded_reset flash₀) events
    rw [hreach] at hbounded
    exact hbounded u rfl
  obtain ⟨p₁, w₁, hrun₁, heffect₁, hanswer₁⟩ := dispatch_calm flash hb cmd seq data hshort
  have hb₁ := heffect₁.bounded hb (Transfer.action_justified hb hshort)
  obtain ⟨p₂, w₂, hrun₂, heffect₂, -⟩ := dispatch_calm w₁.state hb₁ cmd seq data hshort
  obtain ⟨hready, htransfer, hcontents⟩ := heffect₁.harmless
  refine ⟨p₁, w₁, p₂, w₂, hrun₁, hrun₂, ?_, ?_, fun hcmd hack =>
    acked_again hb hshort hrun₁ hanswer₁ hack hcmd hrun₂ heffect₂⟩
  all_goals
    generalize hafter : w₂.state = after at heffect₂ ⊢
    cases heffect₂ with
    | performed htransfer₂ => first | exact htransfer₂.trans htransfer | exact hcontents
    | failed _ hnotReady => exact absurd hready (hnotReady trivial)

/-- A board that waits for its first update is sent the same START_UPDATE twice. -/
theorem retransmission_harmless_waiting :
    ∃ p₁ w₁ p₂ w₂,
      (protocolInit.dispatch cmdStartUpdate 0 (startPayload 8 0 1 .b)).run
        ⟨Board.blank.flash, [], []⟩ = (.done p₁, w₁) ∧
      (p₁.dispatch cmdStartUpdate 0 (startPayload 8 0 1 .b)).run ⟨w₁.state, [], []⟩ =
        (.done p₂, w₂) ∧
      p₂.toTransfer = p₁.toTransfer ∧ SameContents w₁.state w₂.state ∧
      (cmdStartUpdate = cmdStartUpdate ∨ cmdStartUpdate = cmdData ∨ cmdStartUpdate = cmdAbort →
        p₁.tx = protocolInit.tx ++ sendFrame rspAck 0 [] →
        p₂.tx = p₁.tx ++ sendFrame rspAck 0 []) :=
  retransmission_harmless Board.blank.flash Board.run_waiting cmdStartUpdate 0
    (startPayload 8 0 1 .b) (by decide)

end OtaBoot
