import OtaBoot.Histories

/-!
# What the bootloader jumps to

The image that `main` jumps to was checked before `update_mode` was entered.
While `update_mode` listens, the record in force keeps naming the slot, and
transfers go to the other one, until an image is put on trial; then the manager
is `COMPLETE` and the board restarts at the end of the poll. Frames of the same
drain that make the manager leave `COMPLETE` take the restart back.
-/

namespace OtaBoot

open Storage
open Protocol (startRecord endRecord)

/-- The record in force names the slot, and the slot's image passes its checks. -/
def VerifiedActive (flash : Flash) (s : Slot) : Prop :=
  ∃ m, metadataRead flash = some m ∧ m.activeSlot = s.toByte ∧ imageIsIntact flash m s = true

/-- A frame takes back a restart: the manager is `COMPLETE`, the image of the
slot awaits its jump, and the frame begins or drops a transfer. -/
def Board.Overtakes (b : Board) (e : Event) (s : Slot) : Prop :=
  match e, b.mode with
  | .byte byte _, .update u =>
      (∃ nowMs budget received, u.drain = some (nowMs, budget + 1, received)) ∧
        u.next = some s ∧ u.proto.state = .complete ∧
        (u.proto.byteAction b.flash byte = .abort ∨
          ∃ seq size crc ver, u.proto.byteAction b.flash byte = .start seq size crc ver)
  | _, _ => False

/-- The steps after which a jump is what it seems: no frame overtakes a restart,
the write of `on_end_update` reports no error once it is in force, and a rollback
does not find the counter at its end. -/
structure Board.Orderly (b : Board) (e : Event) : Prop where
  inOrder : ∀ s, ¬ b.Overtakes e s
  reported : ∀ slot size crc ver, b.edit e = some (.install slot size crc ver) → e.Quiet
  counted : b.edit e = some .rollback → CounterOk b.flash

section Verified

variable {flash after : Flash} {s : Slot} {l l' : Ledger}

/-- What the ledger says of an image decides whether it passes its checks. -/
theorem verifiedActive_iff :
    VerifiedActive flash s ↔
      ∃ m, metadataRead flash = some m ∧ m.active = s ∧ imageIsIntact flash m s = true := by
  refine exists_congr fun m => and_congr_right fun hread => and_congr_left fun _ => ?_
  rw [← (metadataRead_sound hread).toByte_active]
  refine ⟨fun h => ?_, fun h => by rw [h]⟩
  rw [← Slot.ofByte_toByte m.active, h, Slot.ofByte_toByte]

/-- An image stays verified as long as its slot and its descriptor stay. -/
theorem VerifiedActive.congr (h : VerifiedActive flash s)
    (hledger : ∀ l, ledgerAt flash = some l →
      ∃ l', ledgerAt after = some l' ∧ l'.active = l.active ∧ l'.slot s = l.slot s)
    (hagree : Memory.AgreeOn s.addr.toNat 491520 after flash) : VerifiedActive after s := by
  obtain ⟨m, hread, hactive, hintact⟩ := verifiedActive_iff.mp h
  obtain ⟨l', hl', hactive', hslot⟩ := hledger m.ledger (ledgerAt_of_read hread)
  obtain ⟨m', hread', rfl⟩ := ledgerAt_eq_some hl'
  refine verifiedActive_iff.mpr ⟨m', hread', hactive'.trans hactive, ?_⟩
  rw [imageIsIntact_congr (congrArg Descriptor.size hslot) (congrArg Descriptor.crc32 hslot) hagree]
  exact hintact

/-- A write that leaves the image's descriptor alone, stopped anywhere. -/
theorem VerifiedActive.write {src : Metadata} (h : VerifiedActive flash s)
    (hstopped : WriteStopped flash src after) (hactive : src.ledger.active = s)
    (hslot : src.ledger.slot s = (ledgerOrBlank flash).slot s) : VerifiedActive after s := by
  have hbounds := s.addr_bounds
  obtain ⟨m, hread, hm, -⟩ := verifiedActive_iff.mp h
  refine h.congr (fun l hl => ?_) (hstopped.agreeOn (by omega))
  rw [ledgerOrBlank_of_ledgerAt hl] at hslot
  rw [ledgerAt_of_read hread, Option.some.injEq] at hl
  subst hl
  rcases hstopped.ledgerAt with hold | hnew
  · exact ⟨_, hold.trans (ledgerAt_of_read hread), rfl, rfl⟩
  · exact ⟨_, hnew, hactive.trans hm.symm, hslot⟩

/-- Beginning a transfer concerns the other slot. -/
theorem VerifiedActive.start {size crc ver : UInt32} (h : VerifiedActive flash s)
    (hstopped : WriteStopped flash (startRecord flash (freeSlot flash) size crc ver) after) :
    VerifiedActive after s := by
  obtain ⟨m, hread, rfl, -⟩ := verifiedActive_iff.mp h
  have hblank := ledgerOrBlank_of_ledgerAt (ledgerAt_of_read hread)
  refine h.write hstopped ?_ ?_
  · rw [startRecord_ledger, hblank]
    rfl
  · rw [startRecord_ledger, hblank]
    exact slot_start_active _ _ _ _

/-- The free slot is the other one. -/
theorem VerifiedActive.freeSlot_eq (h : VerifiedActive flash s) : freeSlot flash = s.other := by
  obtain ⟨m, hread, rfl, -⟩ := verifiedActive_iff.mp h
  rw [freeSlot, hread]
  rfl

end Verified

/-! ## The image that awaits its jump -/

/-- The image is verified, and no transfer goes to its slot. -/
structure Guarded (flash : Flash) (t : Transfer) (s : Slot) : Prop where
  verified : VerifiedActive flash s
  target : t.state = .receiving → t.targetSlot = s.other

/-- What awaits a jump is guarded, until the board is to restart. -/
def Board.Aimed (b : Board) : Prop :=
  ∀ u s, b.mode = .update u → u.next = some s → u.proto.state ≠ .complete →
    Guarded b.flash u.proto.toTransfer s

section Aim

variable {quiet : Prop} {flash after : Flash} {s : Slot}

theorem ActionEffect.guarded {p p' : Protocol} {a : Action}
    (h : ActionEffect quiet flash p a after (some p')) (hb : p.Bounded)
    (hjustified : a.Justified flash p.toTransfer) (hguarded : Guarded flash p.toTransfer s)
    (hquiet : ∀ seq, a = .finish seq → quiet) (hstate : p'.state ≠ .complete) :
    Guarded after p'.toTransfer s := by
  have hstore {seq : UInt16} {block : List UInt8} (ha : a = .store seq block) {after : Flash}
      (hstopped : p.BlockStopped flash block after) : VerifiedActive after s := by
    subst ha
    have hchanged := hstopped.changedWithin hb hjustified.2
    -- the block goes to the other slot
    have hne : s ≠ p.targetSlot := by
      rw [hguarded.target hjustified.1]
      exact s.ne_other
    exact hguarded.verified.congr (fun l hl => ⟨l, hchanged.ledgerAt.trans hl, rfl, rfl⟩)
      (hchanged.other hne (Nat.le_refl _))
  cases h with
  | performed htransfer =>
      rw [htransfer]
      cases a with
      | answer => exact hguarded
      | abort => exact ⟨hguarded.verified, fun h => absurd h p.abort_not_receiving⟩
      | start seq size crc ver =>
          exact ⟨hguarded.verified.start (completeImage_stopped _ _),
            fun _ => hguarded.verified.freeSlot_eq⟩
      | store seq block =>
          exact ⟨hstore rfl (.inr (.full _ _ hjustified.2.aligned)),
            fun _ => hguarded.target hjustified.1⟩
      | finish seq =>
          rw [htransfer] at hstate
          exact absurd rfl hstate
  | failed hstopped hready htransfer =>
      rw [htransfer]
      cases a with
      | answer | abort => exact hstopped.elim
      | start seq size crc ver => exact ⟨hguarded.verified.start hstopped, hguarded.target⟩
      | store seq block =>
          exact ⟨hstore rfl hstopped, fun h => absurd h p.abort_not_receiving⟩
      | finish seq => exact absurd trivial (hready (hquiet seq rfl))

/-- In `COMPLETE`, frames that neither begin nor drop a transfer do nothing. -/
theorem Action.eq_answer {t : Transfer} {a : Action} (hjustified : a.Justified flash t)
    (hstate : t.state = .complete)
    (hother : ¬ (a = .abort ∨ ∃ seq size crc ver, a = .start seq size crc ver)) :
    a = .answer := by
  cases a with
  | answer => rfl
  | abort => exact absurd (.inl rfl) hother
  | start seq size crc ver => exact absurd (.inr ⟨seq, size, crc, ver, rfl⟩) hother
  | store seq block => exact absurd (hstate.symm.trans hjustified.1) (by decide)
  | finish seq => exact absurd (hstate.symm.trans hjustified.1) (by decide)

/-- Such frames leave the manager in `COMPLETE`. -/
theorem ActionEffect.complete {p p' : Protocol} {a : Action}
    (h : ActionEffect quiet flash p a after (some p')) (hjustified : a.Justified flash p.toTransfer)
    (hstate : p.state = .complete)
    (hother : ¬ (a = .abort ∨ ∃ seq size crc ver, a = .start seq size crc ver)) :
    p'.state = .complete := by
  rw [Action.eq_answer hjustified hstate hother] at h
  cases h with
  | performed htransfer =>
      rw [htransfer]
      exact hstate
  | failed hstopped => exact hstopped.elim

/-- A boot aims at an image that it has checked. -/
theorem BootEffect.guarded {otaRequest : Bool} {limitMs : UInt32} {boot? : Option Boot}
    (h : BootEffect quiet otaRequest flash after boot?)
    (hboot : boot? = some (.updateMode limitMs (some s))) :
    Guarded after protocolInit.toTransfer s := by
  have hjustified := bootDecision_justified flash
  refine ⟨?_, fun h => absurd h (by decide)⟩
  cases h with
  | parked | rolledBack | rollbackFailed | attemptCut | rollbackCut => cases hboot
  | ran hdecision =>
      cases hboot
      rw [hdecision] at hjustified
      exact verifiedActive_iff.mpr ⟨_, hjustified.1, rfl, hjustified.2.2⟩
  | @attempted m _ hdecision hstopped =>
      cases hboot
      rw [hdecision] at hjustified
      have hverified : VerifiedActive flash m.active :=
        verifiedActive_iff.mpr ⟨m, hjustified.1, rfl, hjustified.2.2.2⟩
      refine hverified.write hstopped (by rw [attemptRecord_ledger]; rfl) ?_
      rw [attemptRecord_ledger, ledgerOrBlank_of_ledgerAt (ledgerAt_of_read hjustified.1)]
      rfl

end Aim

/-- One step keeps the aim. -/
theorem Board.aimed_step {b : Board} {e : Event} (hb : b.Bounded) (haimed : b.Aimed)
    (horderly : b.Orderly e) : (b.step e).Aimed := by
  have heffect := step_effect_own hb e
  generalize b.step e = b' at heffect
  intro u' s hu' hnext hstate
  cases heffect with
  | ignored => exact haimed u' s hu' hnext hstate
  | reset | restarted | returned => cases hu'
  | @boot _ _ _ _ boot? hmode heffect =>
      cases boot? with
      | none => cases hu'
      | some boot =>
          cases boot with
          | jump slot => cases hu'
          | updateMode limitMs next =>
              cases hu'
              cases hnext
              exact heffect.guarded rfl
  | @poll u _ hmode =>
      cases hu'
      exact haimed u s hmode hnext hstate
  | @byte u _ _ _ byte _ _ proto? hmode hdrain heffect =>
      cases proto? with
      | none => cases hu'
      | some proto =>
          cases hu'
          have hjustified : (u.proto.byteAction b.flash byte).Justified b.flash
              u.proto.toTransfer := byteAction_justified (hb u hmode) byte
          by_cases hcomplete : u.proto.state = .complete
          · -- nothing has made the manager leave COMPLETE
            have hovertakes := horderly.inOrder s
            simp only [Overtakes, hmode] at hovertakes
            exact absurd (heffect.complete hjustified hcomplete fun hother =>
              hovertakes ⟨⟨_, _, _, hdrain⟩, hnext, hcomplete, hother⟩) hstate
          · refine heffect.guarded (hb u hmode) hjustified (haimed u s hmode hnext hcomplete)
              (fun seq ha => ?_) hstate
            refine horderly.reported u.proto.targetSlot u.proto.fwSize u.proto.fwCrc32
              u.proto.fwVersion ?_
            simp only [edit, hmode, hdrain, ha, Action.edit]
  | @listened u proto hmode htail =>
      cases hu'
      rcases htail with hsame | ⟨hreceiving, habort⟩
      · have hguarded := haimed u s hmode hnext (by rw [← hsame]; exact hstate)
        exact hsame ▸ hguarded
      · have hguarded := haimed u s hmode hnext (by rw [hreceiving]; decide)
        refine ⟨hguarded.verified, fun h => absurd h ?_⟩
        rw [habort]
        exact u.proto.abort_not_receiving
  | @confirm _ _ _ running => cases running <;> cases hu'

/-- A jump goes to a verified active image. -/
theorem Board.jump_verified {b : Board} {e : Event} {s : Slot} (hb : b.Bounded)
    (haimed : b.Aimed) (horderly : b.Orderly e) (hjump : b.jumps e = some s) :
    VerifiedActive (b.step e).flash s := by
  rcases jump_cases hb hjump with
    ⟨m, hedit, hdecision, rfl, hflash⟩ | ⟨u, hmode, hnext, hstate, hflash⟩
  · have hjustified := bootDecision_justified b.flash
    rw [hdecision] at hjustified
    obtain ⟨hread, -, -, -, hintact⟩ := hjustified
    have hl := ledgerAt_completeImage (horderly.counted hedit)
      (rollbackRecord_sound (metadataRead_sound hread))
    rw [rollbackRecord_ledger, ← hflash] at hl
    obtain ⟨m', hread', hm'⟩ := ledgerAt_eq_some hl
    have hbounds := m.active.other.addr_bounds
    have hslot : m'.ledger.slot m.active.other = m.ledger.slot m.active.other := by
      rw [hm']
      exact slot_rollback_other _
    -- the image was checked against the record before the write
    refine verifiedActive_iff.mpr ⟨m', hread', congrArg Ledger.active hm', ?_⟩
    rw [imageIsIntact_congr (congrArg Descriptor.size hslot) (congrArg Descriptor.crc32 hslot)
      (hflash ▸ (completeImage_stopped _ _).agreeOn (by omega))]
    exact hintact
  · rw [hflash]
    exact (haimed u s hmode hnext hstate).verified

/-- In every run, on any flash, in which no frame overtakes a restart, each jump
goes to the slot that the record in force names, and to an image that passes the
checks made against that record. -/
theorem jumps_verified {flash : Flash} {events : List Event} {e : Event}
    (horderly : Transition.Guarded Board.step Board.Orderly ⟨flash, .reset⟩ (events ++ [e]))
    {s : Slot} (hjump : (Board.run ⟨flash, .reset⟩ events).jumps e = some s) :
    VerifiedActive ((Board.run ⟨flash, .reset⟩ events).step e).flash s := by
  have hstep (b : Board) (e : Event) (h : b.Bounded ∧ b.Aimed) (horderly : b.Orderly e) :
      (b.step e).Bounded ∧ (b.step e).Aimed :=
    ⟨Board.bounded_step h.1 e, Board.aimed_step h.1 h.2 horderly⟩
  have hreset : (⟨flash, .reset⟩ : Board).Bounded ∧ (⟨flash, .reset⟩ : Board).Aimed := by
    refine ⟨fun u hu => ?_, fun u s hu => ?_⟩ <;> cases hu
  obtain ⟨hevents, he, -⟩ := (Transition.guarded_append _ _ _).mp horderly
  have hrun := Transition.invariant_run Board.step (fun b => b.Bounded ∧ b.Aimed) hstep hreset
    hevents
  exact Board.jump_verified hrun.1 hrun.2 he hjump

/-- Without bytes, a step that no fault disturbs is orderly. -/
theorem Board.orderly_of_plain {b : Board} {e : Event} (hcounter : CounterOk b.flash)
    (hplain : e.Plain) (hbyte : ∀ byte faults, e ≠ .byte byte faults) : b.Orderly e := by
  refine ⟨fun s => ?_, fun _ _ _ _ _ => hplain.quiet, fun _ => hcounter⟩
  cases e with
  | byte byte faults => exact absurd rfl (hbyte byte faults)
  | boot | poll | pollEnd | confirm | reset => exact id

/-- The first image of a board is started after its listen window. -/
theorem jumps_verified_firstTrial :
    ∃ flash, (Board.run ⟨flash, .reset⟩ [.boot false 0 [], .poll 3000]).jumps .pollEnd = some .b ∧
      VerifiedActive
        ((Board.run ⟨flash, .reset⟩ [.boot false 0 [], .poll 3000]).step .pollEnd).flash .b := by
  obtain ⟨flash₁, hrun₁, -, hcounter₁, -⟩ := Board.run_firstVectors
  obtain ⟨flash₂, hrun₂, -⟩ := Board.run_firstTrial
  rw [firstTrial, Board.run_append, hrun₁] at hrun₂
  have hjump : (Board.run ⟨flash₁, .reset⟩ [.boot false 0 [], .poll 3000]).jumps .pollEnd =
      some .b := by
    rw [hrun₂, Board.jumps,
      Board.step_pollEnd_idle (trialSession .b) 3000 rfl rfl (by decide) (by decide)]
  have hcounter : Transition.Guarded Board.step (fun b _ => CounterOk b.flash) ⟨flash₁, .reset⟩
      ([.boot false 0 [], .poll 3000] ++ [.pollEnd]) :=
    counterOk_guarded (fun u hu => by cases hu) (by rw [hcounter₁]; decide)
  have hplain (e : Event) (he : e ∈ [.boot false 0 [], .poll 3000] ++ [Event.pollEnd]) :
      e.Plain ∧ ∀ byte faults, e ≠ .byte byte faults := by
    simp only [List.cons_append, List.nil_append, List.mem_cons, List.not_mem_nil, or_false] at he
    rcases he with rfl | rfl | rfl
    all_goals
      refine ⟨⟨rfl, id⟩, fun byte faults h => ?_⟩
      cases h
  have horderly := (hcounter.and (.of_forall hplain _)).mono fun b e h =>
    Board.orderly_of_plain (b := b) h.1 h.2.1 h.2.2
  exact ⟨flash₁, hjump, jumps_verified horderly hjump⟩

/-! ## A restart that is taken back -/

/-- A whole update of the other slot and an ABORT arrive in one drain. -/
def overtaken : List Event := secondInstall ++ frameEvents cmdAbort 3 []

/-- The image of slot B is started, although the record in force names slot A. -/
theorem overtaken_jump_unverified :
    (Board.blank.run overtaken).jumps .pollEnd = some .b ∧
      ¬ VerifiedActive ((Board.blank.run overtaken).step .pollEnd).flash .b := by
  obtain ⟨flash, proto, hrun, hledger, -, -, hhunting, -, hb⟩ := Board.run_secondInstall
  obtain ⟨proto', habort, hidle⟩ := Board.run_abort flash (trialSession .b) 3000 true 3
    (.inl hhunting) hb (by decide : 11 ≤ 455)
  have hboard : Board.blank.run overtaken =
      ⟨flash, .update ((trialSession .b).draining proto' 3000 444 true)⟩ := by
    rw [overtaken, Board.run_append, hrun, habort]
  rw [hboard, Board.jumps,
    Board.step_pollEnd_idle (trialSession .b) 3000 hidle rfl (by decide) (by decide)]
  refine ⟨rfl, fun hverified => ?_⟩
  obtain ⟨m, hread, hactive, -⟩ := verifiedActive_iff.mp hverified
  rw [ledgerAt_of_read hread, Option.some.injEq] at hledger
  rw [← Metadata.ledger_active, hledger] at hactive
  cases hactive

end OtaBoot
