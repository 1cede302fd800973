import OtaBoot.Histories

/-!
# The states of the slots

Which states the two descriptors of the record in force can have together, in
any run from a blank board. Both properties are invariants of the ledger, and
each is kept by all edits but one.
-/

namespace OtaBoot

open Storage

section Invariants

variable {l : Ledger} {edit : Edit}

/-! ## Images on trial -/

/-- No two images are on trial. -/
def Ledger.OneTrial (l : Ledger) : Prop :=
  ∀ s, (l.slot s).state = stateTesting → (l.slot s.other).state ≠ stateTesting

/-- An image is put on trial when the other one is not. -/
def InstallsAlone (l : Ledger) : Edit → Prop
  | .install slot .. => (l.slot slot.other).state ≠ stateTesting
  | _ => True

theorem Ledger.OneTrial.of_states {l' : Ledger} (h : l.OneTrial)
    (hstates : ∀ s, (l'.slot s).state = stateTesting → (l.slot s).state = stateTesting) :
    l'.OneTrial :=
  fun s hs hother => h s (hstates s hs) (hstates s.other hother)

theorem Ledger.OneTrial.apply (hallowed : InstallsAlone l edit) (h : l.OneTrial) :
    (edit.apply l).OneTrial := by
  cases edit with
  | start size crc ver =>
      refine h.of_states fun s hs => ?_
      by_cases hfree : s = l.active.other
      · subst hfree
        rw [slot_start] at hs
        exact absurd hs (by decide : stateInProgress ≠ stateTesting)
      · obtain rfl : s = l.active := by
          rw [Slot.eq_other_iff, not_not] at hfree
          exact hfree
        rwa [slot_start_active] at hs
  | install slot size crc ver =>
      intro s hs hother
      by_cases hslot : s = slot
      · subst hslot
        rw [slot_install_other] at hother
        exact hallowed hother
      · obtain rfl := Slot.eq_other_iff.mpr hslot
        rw [slot_install_other] at hs
        exact hallowed hs
  | attempt => exact h
  | rollback =>
      refine h.of_states fun s hs => ?_
      by_cases hactive : s = l.active
      · subst hactive
        rw [slot_rollback] at hs
        exact absurd hs (by decide : stateEmpty ≠ stateTesting)
      · obtain rfl := Slot.eq_other_iff.mpr hactive
        rwa [slot_rollback_other] at hs
  | confirm slot =>
      refine h.of_states fun s hs => ?_
      by_cases hslot : s = slot
      · subst hslot
        rw [slot_confirm] at hs
        exact absurd hs (by decide : stateValid ≠ stateTesting)
      · obtain rfl := Slot.eq_other_iff.mpr hslot
        rwa [slot_confirm_other] at hs

/-! ## Unfinished transfers -/

/-- The active slot is not one that is being received. -/
def Ledger.ActiveFinished (l : Ledger) : Prop := (l.slot l.active).state ≠ stateInProgress

/-- A rollback finds the other slot's transfer finished. -/
def FallsBackFinished (l : Ledger) : Edit → Prop
  | .rollback => (l.slot l.active.other).state ≠ stateInProgress
  | _ => True

theorem Ledger.ActiveFinished.apply (hallowed : FallsBackFinished l edit)
    (h : l.ActiveFinished) : (edit.apply l).ActiveFinished := by
  unfold Ledger.ActiveFinished at h ⊢
  cases edit with
  | start size crc ver => rwa [active_start, slot_start_active]
  | install slot size crc ver =>
      rw [active_install, slot_install]
      exact (by decide : stateTesting ≠ stateInProgress)
  | attempt => exact h
  | rollback => rwa [active_rollback, slot_rollback_other]
  | confirm slot =>
      rw [active_confirm]
      by_cases hslot : l.active = slot
      · rw [hslot, slot_confirm]
        exact (by decide : stateValid ≠ stateInProgress)
      · obtain hother := Slot.eq_other_iff.mpr hslot
        rw [hother] at h ⊢
        rwa [slot_confirm_other]

end Invariants

/-! ## Runs -/

/-- The record in force after the first update. -/
theorem read_firstUpdate :
    ∃ m, metadataRead (Board.blank.run (firstUpdate vectorsOnly 1)).flash = some m ∧
      m.ledger = firstLedger := by
  obtain ⟨flash, hrun, hledger, -⟩ := Board.run_firstVectors
  rw [hrun]
  exact ledgerAt_eq_some hledger

/-- In every run from a blank board in which images are put on trial only when
the other slot's is not, at most one slot is on trial. -/
theorem one_trial {events : List Event}
    (hguard : Transition.Guarded Board.step (Board.Edits InstallsAlone) Board.blank events)
    {m : Metadata} (hread : metadataRead (Board.blank.run events).flash = some m) :
    ¬ ((m.slot .a).state = stateTesting ∧ (m.slot .b).state = stateTesting) := by
  have hblank : (ledgerOrBlank Board.blank.flash).OneTrial := by
    rw [Board.blank_ledger]
    exact fun s hs => absurd hs (by decide : stateEmpty ≠ stateTesting)
  have hrun := ledger_invariant (fun _ _ => Ledger.OneTrial.apply) Board.blank_bounded hblank hguard
  rw [ledgerOrBlank_of_ledgerAt (ledgerAt_of_read hread)] at hrun
  exact fun h => hrun .a h.1 h.2

/-- After its first update a board has one image on trial. -/
theorem one_trial_firstUpdate :
    ∃ m, metadataRead (Board.blank.run (firstUpdate vectorsOnly 1)).flash = some m ∧
      (m.slot .b).state = stateTesting ∧
      ¬ ((m.slot .a).state = stateTesting ∧ (m.slot .b).state = stateTesting) := by
  obtain ⟨m, hread, hm⟩ := read_firstUpdate
  refine ⟨m, hread, congrArg (fun l => (l.slot .b).state) hm, ?_⟩
  exact one_trial (Board.edits_firstUpdate vectorsOnly_oneBlock 1 trivial
    (by decide : stateEmpty ≠ stateTesting)) hread

/-- A second update before the first is confirmed puts both slots on trial. -/
theorem secondInstall_two_trials :
    ∃ m, metadataRead (Board.blank.run secondInstall).flash = some m ∧
      (m.slot .a).state = stateTesting ∧ (m.slot .b).state = stateTesting := by
  obtain ⟨flash, proto, hrun, hledger, -⟩ := Board.run_secondInstall
  obtain ⟨m, hread, hm⟩ := ledgerAt_eq_some hledger
  refine ⟨m, by rw [hrun]; exact hread, ?_, ?_⟩
  · exact congrArg (fun l => (l.slot .a).state) hm
  · exact congrArg (fun l => (l.slot .b).state) hm

/-- In every run from a blank board in which a rollback finds the other slot's
transfer finished, the active slot is not one that is being received. -/
theorem active_finished {events : List Event}
    (hguard : Transition.Guarded Board.step (Board.Edits FallsBackFinished) Board.blank events)
    {m : Metadata} (hread : metadataRead (Board.blank.run events).flash = some m) :
    (m.slot m.active).state ≠ stateInProgress := by
  have hblank : (ledgerOrBlank Board.blank.flash).ActiveFinished := by
    rw [Board.blank_ledger]
    exact (by decide : stateEmpty ≠ stateInProgress)
  have hrun := ledger_invariant (fun _ _ => Ledger.ActiveFinished.apply) Board.blank_bounded hblank
    hguard
  rwa [ledgerOrBlank_of_ledgerAt (ledgerAt_of_read hread)] at hrun

/-- After its first update a board has a finished image active. -/
theorem active_finished_firstUpdate :
    ∃ m, metadataRead (Board.blank.run (firstUpdate vectorsOnly 1)).flash = some m ∧
      m.active = .b ∧ (m.slot m.active).state ≠ stateInProgress := by
  obtain ⟨m, hread, hm⟩ := read_firstUpdate
  exact ⟨m, hread, congrArg Ledger.active hm,
    active_finished (Board.edits_firstUpdate vectorsOnly_oneBlock 1 trivial trivial) hread⟩

/-- The first image uses up its attempts, and an update of the other slot is
interrupted right before its END_UPDATE. -/
def interrupted : List Event :=
  firstUpdate vectorsOnly 1 ++
    [.boot false 0 [], .reset, .boot false 0 [], .reset, .boot false 0 [], .poll 0] ++
    transferEvents .a vectorsOnly 2 ++ [.reset, .boot false 0 []]

/-- The ledger with all attempts at the first image counted. -/
def exhaustedLedger : Ledger :=
  Edit.attempt.apply (Edit.attempt.apply (Edit.attempt.apply firstLedger))

/-- Three boots, each of them counted; the third listens. -/
theorem run_thirdTrial :
    ∃ flash, Board.blank.run (firstUpdate vectorsOnly 1 ++
        [.boot false 0 [], .reset, .boot false 0 [], .reset, .boot false 0 [], .poll 0]) =
        ⟨flash, .update ((trialSession .b).draining protocolInit 0 512 false)⟩ ∧
      ledgerAt flash = some exhaustedLedger ∧ counterAt flash = 5 := by
  obtain ⟨flash₁, hrun₁, hledger₁, hcounter₁, himage₁⟩ := Board.run_firstVectors
  have hstate : (firstLedger.slot .b).state = stateTesting :=
    congrArg Descriptor.state (slot_install _ _ _ _ _)
  obtain ⟨flash₂, hboot₂, hledger₂, hcounter₂, hslots₂⟩ :=
    Board.boot_attempt false 0 hledger₁ hstate (by decide : (0 : UInt8) < 3) himage₁
      (by rw [hcounter₁]; decide)
  obtain ⟨flash₃, hboot₃, hledger₃, hcounter₃, hslots₃⟩ :=
    Board.boot_attempt false 0 hledger₂ hstate (by decide : (1 : UInt8) < 3)
      (himage₁.congr rfl (hslots₂ .b)) (by rw [hcounter₂, hcounter₁]; decide)
  obtain ⟨flash₄, hboot₄, hledger₄, hcounter₄, -⟩ :=
    Board.boot_attempt false 0 hledger₃ hstate (by decide : (2 : UInt8) < 3)
      (himage₁.congr rfl ((hslots₃ .b).trans (hslots₂ .b)))
      (by rw [hcounter₃, hcounter₂, hcounter₁]; decide)
  refine ⟨flash₄, ?_, hledger₄, by omega⟩
  rw [Board.run_append, hrun₁, Board.run_cons, hboot₂]
  change Board.run ⟨flash₂, .reset⟩ [.boot false 0 [], .reset, .boot false 0 [], .poll 0] = _
  rw [Board.run_cons, hboot₃]
  change Board.run ⟨flash₃, .reset⟩ [.boot false 0 [], .poll 0] = _
  rw [Board.run_cons, hboot₄]
  rfl

/-- The rollback makes the unfinished transfer active. -/
theorem interrupted_active_unfinished :
    ∃ m, metadataRead (Board.blank.run interrupted).flash = some m ∧
      (m.slot m.active).state = stateInProgress := by
  obtain ⟨flash, hboots, hledger, hcounter⟩ := run_thirdTrial
  have hfree : freeSlot flash = .a := by
    rw [freeSlot_eq, ledgerOrBlank_of_ledgerAt hledger]
    rfl
  obtain ⟨flash', proto, htransfer, htransferred, -⟩ :=
    Board.run_transfer flash (trialSession .b) 0 false vectorsOnly_oneBlock 2
      (by rw [hcounter]; decide) (.inl rfl) Transfer.Bounded.init (by decide : _ ≤ 512)
  have hledger' := htransferred.ledger
  have hcontent := htransferred.content
  rw [hfree] at htransfer hcontent
  rw [ledgerOrBlank_of_ledgerAt hledger] at hledger'
  set l := (Edit.start (UInt32.ofNat vectorsOnly.length) (crc32Compute vectorsOnly) 2).apply
    exhaustedLedger with hl
  have hslot : l.slot .a =
      ⟨UInt32.ofNat vectorsOnly.length, crc32Compute vectorsOnly, 2, stateInProgress⟩ :=
    slot_start exhaustedLedger _ _ _
  have hactive : l.slot .b = exhaustedLedger.slot .b := slot_start_active exhaustedLedger _ _ _
  have hstate : (exhaustedLedger.slot .b).state = stateTesting :=
    congrArg Descriptor.state (slot_install _ _ _ _ _)
  -- all that a rollback asks of the other slot is there without END_UPDATE
  have himage : l.Describes flash' .a vectorsOnly :=
    ⟨vectorsOnly_oneBlock.sendable, by rw [hslot], by rw [hslot], hcontent,
      looksBootable_vectorsOnly hcontent⟩
  have hother : (l.slot .a).state ≠ stateEmpty := by
    rw [hslot]
    exact (by decide : stateInProgress ≠ stateEmpty)
  obtain ⟨flash'', hboot, hledger'', -⟩ :=
    Board.boot_rollback false 0 hledger' ((congrArg Descriptor.state hactive).trans hstate)
      (by decide : (3 : UInt8) ≥ 3) hother himage (by rw [htransferred.counter, hcounter]; decide)
  have hrun : Board.blank.run interrupted = ⟨flash'', .app .a⟩ := by
    rw [interrupted, Board.run_append, Board.run_append, hboots, htransfer]
    exact hboot
  obtain ⟨m, hread, hm⟩ := ledgerAt_eq_some hledger''
  have hfallen : m.ledger.slot .a = l.slot .a := by
    rw [hm]
    exact slot_rollback_other l
  have hrolledBack : m.active = .a := congrArg Ledger.active hm
  refine ⟨m, by rw [hrun]; exact hread, ?_⟩
  rw [hrolledBack]
  exact (congrArg Descriptor.state hfallen).trans (congrArg Descriptor.state hslot)

end OtaBoot
