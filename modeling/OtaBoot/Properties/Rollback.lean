import OtaBoot.Properties.Reach

/-!
# A rollback is safe and permanent

A rollback is one write of the metadata. Until it is complete the next boot
decides as before; from then on the fallback is active and confirmed, every boot
runs it, transfers go to the rejected slot, and only the end of an update can
change that.
-/

namespace OtaBoot

open Storage

/-- The image on trial has had its attempts; the other one is confirmed and
passes its checks. -/
structure Rejects (flash : Flash) (m : Metadata) : Prop where
  read : metadataRead flash = some m
  testing : (m.slot m.active).state = stateTesting
  exhausted : m.bootFailCount ≥ maxBootFailures
  valid : (m.slot m.active.other).state = stateValid
  intact : imageIsIntact flash m m.active.other = true

/-- The fallback is active, with the descriptor and the content that it had. -/
structure FallenBack (before : Flash) (m : Metadata) (flash : Flash) : Prop where
  ledger : ∃ l, ledgerAt flash = some l ∧ l.active = m.active.other ∧
    l.slot m.active.other = m.ledger.slot m.active.other
  content : Memory.AgreeOn m.active.other.addr.toNat 491520 flash before

/-- The slot that runs, or will when `update_mode` returns. -/
def Mode.slot : Mode → Option Slot
  | reset => none
  | update u => u.next
  | app slot => some slot

/-- Nothing but the fallback runs or is about to run. -/
structure Board.FallenBack (before : Flash) (m : Metadata) (b : Board) : Prop where
  bounded : b.Bounded
  tracked : b.Tracked
  flash : OtaBoot.FallenBack before m b.flash
  mode : ∀ s, b.mode.slot = some s → s = m.active.other

/-- No received image takes effect, and the counter is below its end. -/
structure Board.KeepsActive (b : Board) (e : Event) : Prop where
  counted : CounterOk b.flash
  noInstall : ∀ slot size crc ver, ¬ b.Makes e (.install slot size crc ver)

/-! ## The write -/

section Write

variable {before flash after : Flash} {m : Metadata}

theorem Rejects.bootDecision (h : Rejects flash m) : bootDecision flash = .rollback m := by
  have hnotValid : ¬ (m.slot m.active).state = stateValid := by
    rw [h.testing]
    decide
  have hother : ¬ ((m.slot m.active.other).state = stateEmpty ∨
      ¬ imageIsIntact flash m m.active.other = true) := by
    rw [not_or, Decidable.not_not]
    refine ⟨?_, h.intact⟩
    rw [h.valid]
    decide
  rw [bootDecision_of_read h.read, if_neg hnotValid, if_pos h.testing, if_pos h.exhausted,
    if_neg hother]

/-- The reasons for a rollback are in the record and in the other slot. -/
theorem Rejects.congr (h : Rejects flash m) (hread : metadataRead after = metadataRead flash)
    (hagree : Memory.AgreeOn m.active.other.addr.toNat 491520 after flash) : Rejects after m := by
  refine ⟨hread.trans h.read, h.testing, h.exhausted, h.valid, ?_⟩
  rw [imageIsIntact_congr rfl rfl hagree]
  exact h.intact

/-- A boot runs the fallback. -/
theorem FallenBack.bootDecision (h : FallenBack before m flash) (hrejects : Rejects before m) :
    ∃ m', metadataRead flash = some m' ∧ m'.active = m.active.other ∧
      (m'.slot m.active.other).descriptor = (m.slot m.active.other).descriptor ∧
      OtaBoot.bootDecision flash = .run m' := by
  obtain ⟨l, hl, hactive, hslot⟩ := h.ledger
  obtain ⟨m', hread, rfl⟩ := ledgerAt_eq_some hl
  rw [Metadata.ledger_active] at hactive
  have hvalid : (m'.slot m'.active).state = stateValid := by
    rw [hactive]
    exact (congrArg Descriptor.state hslot).trans hrejects.valid
  have hintact : imageIsIntact flash m' m'.active = true := by
    rw [hactive, imageIsIntact_congr (congrArg Descriptor.size hslot)
      (congrArg Descriptor.crc32 hslot) h.content]
    exact hrejects.intact
  refine ⟨m', hread, hactive, hslot, ?_⟩
  rw [bootDecision_of_read hread, if_pos hvalid, if_pos hintact]

/-- The rejection is in force. -/
theorem FallenBack.of_rollback (hledger : ledgerAt after = some (Edit.rollback.apply m.ledger))
    (hagree : Memory.AgreeOn m.active.other.addr.toNat 491520 after before) :
    FallenBack before m after :=
  ⟨⟨_, hledger, rfl, slot_rollback_other m.ledger⟩, hagree⟩

/-- The rollback write, stopped anywhere. -/
theorem Rejects.write (h : Rejects before m)
    (hstopped : WriteStopped before (rollbackRecord m) after) :
    Rejects after m ∨
      ledgerAt after = some (Edit.rollback.apply m.ledger) ∧ FallenBack before m after := by
  have hbounds := m.active.other.addr_bounds
  have hagree : Memory.AgreeOn m.active.other.addr.toNat 491520 after before :=
    hstopped.agreeOn (by omega)
  rcases hstopped.metadataRead with hold | ⟨-, -, hnew⟩
  · exact .inl (h.congr hold hagree)
  · have hledger := ledgerAt_of_read hnew
    rw [writtenRecord_ledger, rollbackRecord_ledger] at hledger
    exact .inr ⟨hledger, .of_rollback hledger hagree⟩

end Write

/-! ## What follows it -/

section Aftermath

variable {before flash : Flash} {m : Metadata} {b : Board} {e : Event} {l : Ledger}

/-- The active slot is out of reach. -/
theorem not_spare_of_active (hl : ledgerAt flash = some l) {a : Nat} (ha : l.active.Covers a) :
    ¬ Spare flash a := by
  rintro (hfree | ⟨side, -, hlo, -⟩)
  · have hdisjoint := Slot.addr_disjoint l.active.other_ne
    rw [freeSlot_eq, ledgerOrBlank_of_ledgerAt hl] at hfree
    unfold Slot.Covers at ha hfree
    omega
  · have hpage := metaPage_bounds side
    have hslot := l.active.addr_bounds
    unfold Slot.Covers at ha
    omega

/-- No event touches the active slot. -/
theorem Board.active_content_step (hb : b.Bounded) (ht : b.Tracked)
    (hl : ledgerAt b.flash = some l) (e : Event) :
    Memory.AgreeOn l.active.addr.toNat 491520 (b.step e).flash b.flash := by
  have hbounds := l.active.addr_bounds
  have hwrite {src : Metadata} {after : Flash} (hstopped : WriteStopped b.flash src after) :
      Memory.AgreeOn l.active.addr.toNat 491520 after b.flash := hstopped.agreeOn (by omega)
  have heffect := step_effect_any hb e
  generalize b.step e = b' at heffect
  cases heffect with
  | ignored | reset | poll | listened | restarted | returned => exact .refl _ _ _
  | boot hmode heffect =>
      rcases heffect.stopped with rfl | ⟨-, src, -, -, -, -, hstopped⟩
      · exact .refl _ _ _
      · exact hwrite hstopped
  | @byte u _ _ _ byte _ _ _ hmode hdrain heffect =>
      have hjustified : (u.proto.byteAction b.flash byte).Justified b.flash u.proto.toTransfer :=
        byteAction_justified (hb u hmode) byte
      intro a hlo hhi
      exact heffect.spare (hb u hmode) hjustified (ht u hmode) (not_spare_of_active hl ⟨hlo, hhi⟩)
  | confirm hmode heffect =>
      cases heffect with
      | needless => exact .refl _ _ _
      | written _ hstopped | cut _ hstopped => exact hwrite hstopped

/-- Nothing else is started: a boot runs the fallback, and update mode returns to
what the boot has chosen. -/
theorem Board.FallenBack.mode_step (h : b.FallenBack before m) (hrejects : Rejects before m)
    (e : Event) : ∀ s, (b.step e).mode.slot = some s → s = m.active.other := by
  obtain ⟨m', -, hactive, -, hrun⟩ := h.flash.bootDecision hrejects
  have heffect := step_effect_any h.bounded e
  generalize b.step e = b' at heffect
  intro s hs
  cases heffect with
  | ignored => exact h.mode s hs
  | reset | restarted => cases hs
  | boot hmode heffect =>
      cases heffect with
      | parked hdecision | attempted hdecision | attemptCut hdecision | rolledBack hdecision
      | rollbackFailed hdecision | rollbackCut hdecision =>
          rw [hrun] at hdecision
          cases hdecision
      | ran hdecision =>
          rw [hrun] at hdecision
          cases hdecision
          cases hs
          exact hactive
  | poll hmode | listened hmode =>
      refine h.mode s ?_
      rw [hmode]
      exact hs
  | @byte _ _ _ _ _ _ _ proto? hmode =>
      cases proto? with
      | none => cases hs
      | some proto =>
          refine h.mode s ?_
          rw [hmode]
          exact hs
  | returned hmode hnext =>
      refine h.mode s ?_
      rw [hmode]
      exact hnext.trans hs
  | @confirm _ _ _ running hmode =>
      cases running with
      | false => cases hs
      | true =>
          refine h.mode s ?_
          rw [hmode]
          exact hs

/-- The fallback stays active, and its descriptor as it was: updates describe the
other slot, and a confirmed image is confirmed again. -/
theorem Board.FallenBack.ledger_step (h : b.FallenBack before m) (hrejects : Rejects before m)
    (hkeeps : b.KeepsActive e) :
    ∃ l, ledgerAt (b.step e).flash = some l ∧ l.active = m.active.other ∧
      l.slot m.active.other = m.ledger.slot m.active.other := by
  obtain ⟨l, hl, hactive, hslot⟩ := h.flash.ledger
  obtain ⟨m', -, -, -, hrun⟩ := h.flash.bootDecision hrejects
  rcases OtaBoot.ledger_step h.bounded e with hold | ⟨edit, hmakes⟩
  · exact ⟨l, hold.trans hl, hactive, hslot⟩
  · have hnew := hmakes.2
    rw [ledgerOrBlank_of_ledgerAt hl] at hnew
    cases edit_cause hmakes.1 with
    | attempt _ hdecision | rollback _ hdecision =>
        rw [hrun] at hdecision
        cases hdecision
    | install => exact absurd hmakes (hkeeps.noInstall _ _ _ _)
    | start =>
        refine ⟨_, hnew, hactive, ?_⟩
        rw [← hactive, slot_start_active, hactive, hslot]
    | @confirm s _ hmode =>
        obtain rfl := h.mode s (by rw [hmode]; rfl)
        refine ⟨_, hnew, hactive, ?_⟩
        rw [slot_confirm, hslot]
        have hvalid : (m.ledger.slot m.active.other).state = stateValid := hrejects.valid
        rw [← hvalid]

theorem Board.FallenBack.step (h : b.FallenBack before m) (hrejects : Rejects before m)
    (hkeeps : b.KeepsActive e) : (b.step e).FallenBack before m := by
  obtain ⟨l, hl, hactive, -⟩ := h.flash.ledger
  have hcontent := active_content_step h.bounded h.tracked hl e
  rw [hactive] at hcontent
  exact ⟨bounded_step h.bounded e, tracked_step hkeeps.counted h.bounded h.tracked,
    ⟨h.ledger_step hrejects hkeeps, hcontent.trans h.flash.content⟩, h.mode_step hrejects e⟩

/-- Transfers go to the rejected slot. -/
theorem Board.FallenBack.target (h : b.FallenBack before m) {u : Session}
    (hmode : b.mode = .update u) (hstate : u.proto.state = .receiving) :
    u.proto.targetSlot = m.active := by
  obtain ⟨l, hl, hactive, -⟩ := h.flash.ledger
  rw [← (h.tracked u hmode).freeSlot_eq hstate, freeSlot_eq, ledgerOrBlank_of_ledgerAt hl, hactive,
    Slot.other_other]

end Aftermath

/-- The boot that rolls back, when only power loss disturbs it. -/
theorem Rejects.boot {flash : Flash} {m : Metadata} (h : Rejects flash m)
    (hcounter : CounterOk flash) (otaRequest : Bool) (start : UInt32) {faults : List Fault}
    (hquiet : ∀ fault ∈ faults, fault.Quiet) {b : Board}
    (hb : Board.step ⟨flash, .reset⟩ (.boot otaRequest start faults) = b) :
    b.mode = .reset ∧ Rejects b.flash m ∨
      (b.mode = .reset ∨ b.mode = .app m.active.other) ∧
        ledgerAt b.flash = some (Edit.rollback.apply m.ledger) ∧ FallenBack flash m b.flash := by
  have heffect := step_effect_own (Board.bounded_reset flash) (.boot otaRequest start faults)
  have hdecision := h.bootDecision
  rw [hb] at heffect
  cases heffect with
  | ignored hnone =>
      change (OtaBoot.bootDecision flash).edit = none at hnone
      rw [hdecision] at hnone
      cases hnone
  | boot hmode heffect =>
      cases heffect with
      | parked hother | ran hother | attempted hother | attemptCut hother =>
          rw [hdecision] at hother
          cases hother
      | rolledBack hother =>
          rw [hdecision] at hother
          cases hother
          have hbounds := m.active.other.addr_bounds
          have hledger := ledgerAt_completeImage hcounter
            (rollbackRecord_sound (metadataRead_sound h.read))
          rw [rollbackRecord_ledger] at hledger
          exact .inr ⟨.inr rfl, hledger,
            .of_rollback hledger ((completeImage_stopped _ _).agreeOn (by omega))⟩
      | rollbackFailed _ _ hnoisy => exact absurd hquiet hnoisy
      | rollbackCut hother hstopped =>
          rw [hdecision] at hother
          cases hother
          rcases h.write hstopped with hold | hnew
          · exact .inl ⟨rfl, hold⟩
          · exact .inr ⟨.inl rfl, hnew⟩

/-- Undisturbed, that boot completes its write. -/
theorem Rejects.boot_undisturbed {flash : Flash} {m : Metadata} (h : Rejects flash m)
    (hcounter : CounterOk flash) (otaRequest : Bool) (start : UInt32) :
    ledgerAt (Board.step ⟨flash, .reset⟩ (.boot otaRequest start [])).flash =
      some (Edit.rollback.apply m.ledger) := by
  rw [Board.step_boot, h.bootDecision, ← rollbackRecord_ledger]
  exact ledgerAt_completeImage hcounter (rollbackRecord_sound (metadataRead_sound h.read))

/-- Wherever the write of a rollback stops, the next boot takes the same decision
or runs the fallback. Once the write is complete, until a received image takes
effect, whatever happens: the fallback stays active with the descriptor it had
and is what a boot decides for, nothing else is started, and transfers go to
the rejected slot. -/
theorem rollback_permanent {flash : Flash} {m : Metadata} (hrejects : Rejects flash m)
    (hcounter : CounterOk flash) (otaRequest : Bool) (start : UInt32) {faults : List Fault}
    (hquiet : ∀ fault ∈ faults, fault.Quiet) {b : Board}
    (hb : Board.step ⟨flash, .reset⟩ (.boot otaRequest start faults) = b) :
    (b.mode = .reset ∧ bootDecision b.flash = .rollback m ∨
      (b.mode = .reset ∨ b.mode = .app m.active.other) ∧
        ledgerAt b.flash = some (Edit.rollback.apply m.ledger) ∧
        ∃ m', m'.active = m.active.other ∧ bootDecision b.flash = .run m') ∧
    (ledgerAt b.flash = some (Edit.rollback.apply m.ledger) →
      ∀ events, Transition.Guarded Board.step Board.KeepsActive b events →
        (∃ m', metadataRead (b.run events).flash = some m' ∧ m'.active = m.active.other ∧
          (m'.slot m.active.other).descriptor = (m.slot m.active.other).descriptor ∧
          bootDecision (b.run events).flash = .run m') ∧
        (∀ e s, (b.run events).jumps e = some s → s = m.active.other) ∧
        ∀ u, (b.run events).mode = .update u → u.proto.state = .receiving →
          u.proto.targetSlot = m.active) := by
  rcases hrejects.boot hcounter otaRequest start hquiet hb with
    ⟨hmode, hsame⟩ | ⟨hmode, hnew, hfallen⟩
  · refine ⟨.inl ⟨hmode, hsame.bootDecision⟩, fun hcomplete => ?_⟩
    -- the record in force still names the rejected slot
    rw [ledgerAt_of_read hsame.read, Option.some.injEq] at hcomplete
    exact absurd (congrArg Ledger.active hcomplete).symm m.active.other_ne
  · obtain ⟨m', -, hactive, -, hrun⟩ := hfallen.bootDecision hrejects
    refine ⟨.inr ⟨hmode, hnew, m', hactive, hrun⟩, fun _ events hguard => ?_⟩
    have hstart : b.FallenBack flash m := by
      refine ⟨hb ▸ Board.bounded_step (Board.bounded_reset flash) _, fun u hu => ?_, hfallen,
        fun s hs => ?_⟩
      · rcases hmode with hreset | happ
        · cases hreset.symm.trans hu
        · cases happ.symm.trans hu
      · rcases hmode with hreset | happ
        · rw [hreset] at hs
          cases hs
        · rw [happ] at hs
          exact (Option.some.inj hs).symm
    have hend := Transition.invariant_run Board.step (Board.FallenBack flash m)
      (fun b e h hkeeps => h.step hrejects hkeeps) hstart hguard
    rw [← Board.run] at hend
    refine ⟨hend.flash.bootDecision hrejects, fun e s hjump => ?_, fun u hu => hend.target hu⟩
    refine hend.mode_step hrejects e s ?_
    rw [(Board.jumps_eq_some hjump).1]
    rfl

/-- The image in slot B has had its three attempts, the one in slot A is confirmed. -/
def exhaustedTrial : Metadata :=
  { bothConfirmed with
    slotB := { confirmedInfo with state := stateTesting }, bootFailCount := maxBootFailures }

theorem exhaustedTrial_rejects :
    ∃ m, Rejects (stocked vectorsOnly vectorsOnly exhaustedTrial) m ∧
      m.ledger = exhaustedTrial.ledger ∧
      counterAt (stocked vectorsOnly vectorsOnly exhaustedTrial) = 1 := by
  have hsound : exhaustedTrial.Sound := by
    refine ⟨by decide, fun s => ?_, fun s => ?_⟩
    · cases s
      · exact (by decide : stateValid ≤ stateValid)
      · exact (by decide : stateTesting ≤ stateValid)
    · cases s <;> exact (by decide : UInt32.ofNat vectorsOnly.length ≤ slotSize)
  obtain ⟨m, hread, hm, hcounter⟩ := stocked_read (by decide : vectorsOnly.length ≤ _)
    (by decide : vectorsOnly.length ≤ _) hsound
  have hactive : m.active = .b := congrArg Ledger.active hm
  have hslot : m.ledger.slot .a = confirmedInfo.descriptor := by
    rw [hm]
    rfl
  refine ⟨m, ⟨hread, ?_, ?_, ?_, ?_⟩, hm, hcounter⟩
  · rw [hactive]
    exact congrArg (fun l => (l.slot .b).state) hm
  · exact UInt8.le_of_eq (congrArg Ledger.bootFailCount hm).symm
  · rw [hactive]
    exact congrArg Descriptor.state hslot
  · rw [hactive]
    exact (confirmedInfo_describes hslot (stocked_slotA (by decide))).intact

/-- After the rollback and a reset, the board decides to run slot A. -/
theorem rollback_permanent_exhausted :
    ∃ m m', Rejects (stocked vectorsOnly vectorsOnly exhaustedTrial) m ∧ m.active = .b ∧
      m'.active = .a ∧
      bootDecision (Board.run ⟨stocked vectorsOnly vectorsOnly exhaustedTrial, .reset⟩
        [.boot false 0 [], .reset]).flash = .run m' := by
  obtain ⟨m, hrejects, hm, hcounter⟩ := exhaustedTrial_rejects
  have hactive : m.active = .b := congrArg Ledger.active hm
  have hcounterOk := counterOk_iff.mpr (by rw [hcounter]; decide)
  obtain ⟨b, hb⟩ : ∃ b, Board.step ⟨stocked vectorsOnly vectorsOnly exhaustedTrial, .reset⟩
    (.boot false 0 []) = b := ⟨_, rfl⟩
  obtain ⟨-, hafter⟩ :=
    rollback_permanent hrejects hcounterOk false 0 (List.forall_mem_nil _) hb
  have hrolledBack : ledgerAt b.flash = some (Edit.rollback.apply m.ledger) := by
    rw [← hb]
    exact hrejects.boot_undisturbed hcounterOk false 0
  have hguard : Transition.Guarded Board.step Board.KeepsActive b [.reset] := by
    refine ⟨⟨?_, fun slot size crc ver hmakes => ?_⟩, trivial⟩
    · have hstep := counterAt_step (Board.bounded_reset
        (stocked vectorsOnly vectorsOnly exhaustedTrial)) (.boot false 0 [])
      rw [hb, hcounter] at hstep
      exact counterOk_iff.mpr (by omega)
    · cases hmakes.1
  obtain ⟨⟨m', -, hactive', -, hrun⟩, -⟩ := hafter hrolledBack [.reset] hguard
  rw [hactive] at hactive'
  refine ⟨m, m', hrejects, hactive, hactive', ?_⟩
  rw [Board.run_cons, hb, hrun]

end OtaBoot
