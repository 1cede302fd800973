import OtaBoot.Lifecycle

/-!
# A transfer under way is on record

While the manager is receiving an image, the record in force describes the
target slot as being received and names the other slot as active. The marking
comes first, by the write that `on_start_update` waits for; nothing that happens
until the transfer is dropped or finished takes it back.
-/

namespace OtaBoot

open Storage
open Protocol (startRecord endRecord)

/-- The ledger in force says what the manager is doing. -/
def Tracked (flash : Flash) (t : Transfer) : Prop :=
  t.state = .receiving → ∃ l, ledgerAt flash = some l ∧ l.active = t.targetSlot.other ∧
    (l.slot t.targetSlot).state = stateInProgress

def Board.Tracked (b : Board) : Prop :=
  ∀ u, b.mode = .update u → OtaBoot.Tracked b.flash u.proto.toTransfer

section Tracked

variable {quiet : Prop} {flash after : Flash} {t t' : Transfer}

theorem Tracked.of_not_receiving (h : t.state ≠ .receiving) : Tracked flash t :=
  fun hstate => absurd hstate h

theorem Tracked.abort (flash : Flash) (t : Transfer) : Tracked flash t.abort :=
  .of_not_receiving t.abort_not_receiving

/-- The target of a transfer is the free slot. -/
theorem Tracked.freeSlot_eq (h : Tracked flash t) (hstate : t.state = .receiving) :
    freeSlot flash = t.targetSlot := by
  obtain ⟨l, hl, hactive, -⟩ := h hstate
  rw [OtaBoot.freeSlot_eq, ledgerOrBlank_of_ledgerAt hl, hactive, Slot.other_other]

theorem Tracked.congr (h : Tracked flash t) (hledger : ledgerAt after = ledgerAt flash)
    (hstate : t'.state = .receiving → t.state = .receiving)
    (htarget : t'.targetSlot = t.targetSlot) : Tracked after t' := by
  intro hreceiving
  rw [hledger, htarget]
  exact h (hstate hreceiving)

/-- A ledger that was just edited for a transfer to the free slot. -/
theorem tracked_started {size crc ver : UInt32}
    (hledger : ledgerAt after = some ((Edit.start size crc ver).apply (ledgerOrBlank flash)))
    (htarget : t'.targetSlot = freeSlot flash) : Tracked after t' := by
  intro _
  refine ⟨_, hledger, ?_, ?_⟩
  · rw [htarget, freeSlot_eq, Slot.other_other, active_start]
  · rw [htarget, freeSlot_eq, slot_start]

/-- Every action keeps the transfer on record. -/
theorem ActionEffect.tracked {p p' : Protocol} {a : Action}
    (h : ActionEffect quiet flash p a after (some p')) (hcounter : CounterOk flash)
    (hb : p.Bounded) (hjustified : a.Justified flash p.toTransfer)
    (ht : Tracked flash p.toTransfer) : Tracked after p'.toTransfer := by
  cases h with
  | performed htransfer =>
      rw [htransfer]
      cases a with
      | answer => exact ht
      | abort => exact .abort _ _
      | start seq size crc ver =>
          have hsize : size ≤ slotSize := UInt32.le_iff_toNat_le.mpr hjustified.1
          exact tracked_started (ledgerAt_startRecord hcounter crc ver hsize) rfl
      | store seq block =>
          have hstopped : p.BlockStopped flash block
              ((p.pageReady flash).store p.blockAddr.toNat block) :=
            .inr (.full _ _ hjustified.2.aligned)
          exact ht.congr (hstopped.changedWithin hb hjustified.2).ledgerAt (fun _ => hjustified.1)
            rfl
      | finish seq => exact .of_not_receiving (by intro h; cases h)
  | failed hstopped hready htransfer =>
      rw [htransfer]
      cases a with
      | answer | abort => exact hstopped.elim
      -- a refused START_UPDATE may have left its mark, which names the same slot
      | start seq size crc ver =>
          rcases WriteStopped.ledgerAt hstopped with hold | hnew
          · exact ht.congr hold id rfl
          · intro hstate
            rw [startRecord_ledger] at hnew
            exact tracked_started hnew (ht.freeSlot_eq hstate).symm hstate
      | store | finish => exact .abort _ _

end Tracked

/-! ## Along a run -/

/-- One step keeps transfers on record. -/
theorem Board.tracked_step {b : Board} {e : Event} (hcounter : CounterOk b.flash)
    (hb : b.Bounded) (ht : b.Tracked) : (b.step e).Tracked :=
  (step_effect_any hb e).holds hb ht (fun _ => .of_not_receiving init_not_receiving)
    (fun _ => .abort _ _) fun heffect hb hjustified => heffect.tracked hcounter hb hjustified

end OtaBoot
