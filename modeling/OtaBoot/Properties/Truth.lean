import OtaBoot.Tracking
import OtaBoot.Histories

/-!
# The metadata never lies about an image

A descriptor that calls a slot's image on trial or valid gives the CRC of what
the slot holds. A slot is marked as being received before its first page is
erased, and called on trial only after its content was read back.
-/

namespace OtaBoot

open Storage
open Protocol (startRecord endRecord)

/-- The ledger is true of the slots' contents. -/
def Ledger.TrueOf (l : Ledger) (flash : Flash) : Prop :=
  ∀ s, (l.slot s).state = stateTesting ∨ (l.slot s).state = stateValid →
    crc32Compute (flash.read s.addr.toNat (l.slot s).size.toNat) = (l.slot s).crc32

/-- The ledger in force is true. -/
def Truthful (flash : Flash) : Prop := ∀ l, ledgerAt flash = some l → l.TrueOf flash

section Truth

variable {quiet : Prop} {flash after : Flash} {l : Ledger}

theorem ledgerAt_size {l : Ledger} (h : ledgerAt flash = some l) (s : Slot) :
    (l.slot s).size.toNat ≤ 491520 := by
  -- a record that is read has passed the check on its sizes
  obtain ⟨m, hread, rfl⟩ := ledgerAt_eq_some h
  exact UInt32.le_iff_toNat_le.mp ((metadataRead_sound hread).size s)

theorem Truthful.ledgerOrBlank (h : Truthful flash) : (ledgerOrBlank flash).TrueOf flash := by
  cases hl : ledgerAt flash with
  | some l => rw [ledgerOrBlank_of_ledgerAt hl]; exact h l hl
  | none =>
      rw [OtaBoot.ledgerOrBlank, hl]
      intro s hs
      exact absurd hs (by cases s <;> decide)

/-- What a ledger says of a slot holds as long as the slot is left alone. -/
theorem TrueOf.slot {l' : Ledger} {s : Slot} (h : l.TrueOf flash) (hslot : l'.slot s = l.slot s)
    (hsize : (l'.slot s).size.toNat ≤ 491520)
    (hagree : Memory.AgreeOn s.addr.toNat 491520 after flash)
    (hstate : (l'.slot s).state = stateTesting ∨ (l'.slot s).state = stateValid) :
    crc32Compute (after.read s.addr.toNat (l'.slot s).size.toNat) = (l'.slot s).crc32 := by
  rw [hslot] at hstate hsize ⊢
  rw [(hagree.mono (Nat.le_refl _) (Nat.add_le_add_left hsize _)).read_eq]
  exact h s hstate

/-- A write of a true record, stopped anywhere. -/
theorem Truthful.write {src : Metadata} (h : Truthful flash) (hsrc : src.ledger.TrueOf flash)
    (hstopped : WriteStopped flash src after) : Truthful after := by
  have hagree (s : Slot) : Memory.AgreeOn s.addr.toNat 491520 after flash := by
    have := s.addr_bounds
    exact hstopped.agreeOn (by omega)
  intro l hl s hs
  rcases hstopped.ledgerAt with hold | hnew
  · exact TrueOf.slot (h l (hold ▸ hl)) rfl (ledgerAt_size hl s) (hagree s) hs
  · obtain rfl : src.ledger = l := Option.some.inj (hnew.symm.trans hl)
    exact TrueOf.slot hsrc rfl (ledgerAt_size hl s) (hagree s) hs

/-- Storing into a slot that is marked as being received. -/
theorem Truthful.store {t : Slot} (h : Truthful flash) (hl : ledgerAt flash = some l)
    (hmarked : (l.slot t).state = stateInProgress) (hchanged : ChangedWithin t flash after) :
    Truthful after := by
  intro l' hl' s hs
  rw [hchanged.ledgerAt, hl] at hl'
  obtain rfl := Option.some.inj hl'
  by_cases hst : s = t
  · subst hst
    rw [hmarked] at hs
    exact absurd hs (by decide)
  · exact TrueOf.slot (h l hl) rfl (ledgerAt_size hl s) (hchanged.other hst (Nat.le_refl _)) hs

/-! ## The five edits -/

theorem trueOf_start (h : l.TrueOf flash) (size crc ver : UInt32) :
    ((Edit.start size crc ver).apply l).TrueOf flash := by
  intro s hs
  by_cases hfree : s = l.active.other
  · subst hfree
    rw [slot_start] at hs
    exact absurd hs (by decide : ¬ (stateInProgress = stateTesting ∨ stateInProgress = stateValid))
  · rw [Edit.apply, Ledger.slot_describe_of_ne _ _ _ _ hfree] at hs ⊢
    exact h s hs

theorem trueOf_install (h : l.TrueOf flash) {slot : Slot} {size crc : UInt32} (ver : UInt32)
    (hcrc : crc32Compute (flash.read slot.addr.toNat size.toNat) = crc) :
    ((Edit.install slot size crc ver).apply l).TrueOf flash := by
  intro s hs
  simp only [Edit.apply] at hs ⊢
  by_cases hslot : s = slot
  · subst hslot
    rw [Ledger.slot_describe]
    exact hcrc
  · rw [Ledger.slot_describe_of_ne _ _ _ _ hslot] at hs ⊢
    exact h s hs

theorem trueOf_rollback (h : l.TrueOf flash) : (Edit.rollback.apply l).TrueOf flash := by
  intro s hs
  simp only [Edit.apply] at hs ⊢
  by_cases hactive : s = l.active
  · subst hactive
    rw [Ledger.slot_describe] at hs
    exact absurd hs (by decide : ¬ (stateEmpty = stateTesting ∨ stateEmpty = stateValid))
  · rw [Ledger.slot_describe_of_ne _ _ _ _ hactive] at hs ⊢
    exact h s hs

/-! ## Steps -/

theorem Action.Stopped.truthful {t : Transfer} {a : Action} (h : a.Stopped flash t after)
    (hb : t.Bounded) (hjustified : a.Justified flash t) (htracked : Tracked flash t)
    (htrue : Truthful flash) : Truthful after := by
  cases a with
  | answer | abort => exact h.elim
  | start seq size crc ver =>
      exact htrue.write (by rw [startRecord_ledger]; exact trueOf_start htrue.ledgerOrBlank _ _ _) h
  | store seq block =>
      obtain ⟨l, hl, -, hmarked⟩ := htracked hjustified.1
      exact htrue.store hl hmarked (h.changedWithin hb hjustified.2)
  | finish seq =>
      refine htrue.write ?_ h
      rw [endRecord_ledger]
      exact trueOf_install htrue.ledgerOrBlank _ hjustified.2.2

theorem ActionEffect.truthful {p : Protocol} {p? : Option Protocol} {a : Action}
    (h : ActionEffect quiet flash p a after p?) (hb : p.Bounded)
    (hjustified : a.Justified flash p.toTransfer) (htracked : Tracked flash p.toTransfer)
    (htrue : Truthful flash) : Truthful after := by
  cases h with
  | performed =>
      rcases hjustified.stopped_image with heq | hstopped
      · exact heq.symm ▸ htrue
      · exact hstopped.truthful hb hjustified htracked htrue
  | failed hstopped => exact hstopped.truthful hb hjustified htracked htrue
  | cut hstopped => exact hstopped.truthful hb hjustified htracked htrue

theorem BootEffect.truthful {otaRequest : Bool} {boot? : Option Boot}
    (h : BootEffect quiet otaRequest flash after boot?) (htrue : Truthful flash) :
    Truthful after := by
  rcases h.stopped with rfl | ⟨m, src, edit, hread, hedit, hsrc, hstopped⟩
  · exact htrue
  refine htrue.write ?_ hstopped
  have hm := htrue _ (ledgerAt_of_read hread)
  rw [hsrc]
  -- only the two edits of a boot matter
  cases hdecision : bootDecision flash with
  | park | run => rw [hdecision] at hedit; cases hedit
  | attempt =>
      rw [hdecision] at hedit
      cases hedit
      exact hm
  | rollback =>
      rw [hdecision] at hedit
      cases hedit
      exact trueOf_rollback hm

end Truth

/-! ## Runs -/

/-- The ledger in force is true, and a transfer under way is on record. -/
structure Board.Honest (b : Board) : Prop where
  truthful : Truthful b.flash
  tracked : b.Tracked
  bounded : b.Bounded

/-- About to boot, honesty concerns the flash alone. -/
theorem Board.honest_reset_iff {flash : Flash} :
    (⟨flash, .reset⟩ : Board).Honest ↔ Truthful flash := by
  refine ⟨fun h => h.truthful, fun h => ⟨h, ?_, ?_⟩⟩ <;>
  · intro u hu
    cases hu

theorem Board.blank_honest : Board.blank.Honest := by
  refine honest_reset_iff.mpr fun l hl => ?_
  rw [ledgerAt, metadataRead_erased] at hl
  cases hl

theorem Board.honest_step {b : Board} {e : Event} (h : b.Honest) (hcounter : CounterOk b.flash)
    (hevent : ¬ e.IsConfirm) : (b.step e).Honest := by
  refine ⟨?_, tracked_step hcounter h.bounded h.tracked, bounded_step h.bounded e⟩
  have heffect := step_effect_any h.bounded e
  generalize b.step e = b' at heffect
  cases heffect with
  | ignored | reset | poll | listened | restarted | returned => exact h.truthful
  | boot hmode heffect => exact heffect.truthful h.truthful
  | byte hmode hdrain heffect =>
      exact heffect.truthful (h.bounded _ hmode) (byteAction_justified (h.bounded _ hmode) _)
        (h.tracked _ hmode) h.truthful
  | confirm => exact absurd trivial hevent

/-- In every state that a run of the bootloader reaches, from erased flash or
from any honest state, a slot on trial or valid holds the image its descriptor
gives the CRC of. -/
theorem metadata_never_lies {b : Board} (hb : b = Board.blank ∨ b.Honest) {events : List Event}
    (hguard : Transition.Guarded Board.step
      (fun b e => CounterOk b.flash ∧ ¬ e.IsConfirm) b events)
    {m : Metadata} (hread : metadataRead (b.run events).flash = some m) (s : Slot)
    (hstate : (m.slot s).state = stateTesting ∨ (m.slot s).state = stateValid) :
    crc32Compute ((b.run events).flash.read s.addr.toNat (m.slot s).size.toNat) =
      (m.slot s).crc32 := by
  have hhonest : b.Honest := by
    rcases hb with rfl | hb
    · exact Board.blank_honest
    · exact hb
  have hrun := Transition.invariant_run Board.step Board.Honest
    (fun b e h hg => Board.honest_step h hg.1 hg.2) hhonest hguard
  exact hrun.truthful _ (ledgerAt_of_read hread) s hstate

/-- The first image of a board is what the metadata says it is. -/
theorem metadata_never_lies_firstUpdate :
    ∃ m, metadataRead (Board.blank.run (firstUpdate vectorsOnly 1)).flash = some m ∧
      (m.slot .b).state = stateTesting ∧
      crc32Compute ((Board.blank.run (firstUpdate vectorsOnly 1)).flash.read Slot.b.addr.toNat
        (m.slot .b).size.toNat) = (m.slot .b).crc32 := by
  obtain ⟨flash, hrun, hledger, -⟩ := Board.run_firstVectors
  obtain ⟨m, hread, hm⟩ := ledgerAt_eq_some hledger
  have hstate : (m.slot .b).state = stateTesting := congrArg (fun l => (l.slot .b).state) hm
  have hshort : counterAt Board.blank.flash + (firstUpdate vectorsOnly 1).length < 2 ^ 32 - 1 := by
    rw [Board.blank_counter, length_firstUpdate]
    decide
  have hplain (e : Event) (he : e ∈ firstUpdate vectorsOnly 1) : ¬ e.IsConfirm :=
    (firstUpdate_plain he).2
  have hguard := (counterOk_guarded Board.blank_honest.bounded hshort).and (.of_forall hplain _)
  have hread' : metadataRead (Board.blank.run (firstUpdate vectorsOnly 1)).flash = some m := by
    rw [hrun]
    exact hread
  exact ⟨m, hread', hstate, metadata_never_lies (.inl rfl) hguard hread' .b (.inl hstate)⟩

end OtaBoot
