import OtaBoot.Properties.Jumps

/-!
# A trial is bounded

From its installation on, an image is started only after an attempt has been
counted. The invariant keeps the count ahead of the jumps: an attempt is counted
before update mode is entered, where one jump can follow from it.
-/

namespace OtaBoot

open Storage
open Protocol (startRecord endRecord)

/-- Unless the manager becomes `COMPLETE`, update mode will end in a jump to the
slot. -/
def Board.awaits (b : Board) (s : Slot) : Bool :=
  match b.mode with
  | .update u => u.next = some s ∧ u.proto.state ≠ .complete
  | _ => false

/-- The attempts that are over. -/
def Board.started (b : Board) (s : Slot) : Nat :=
  (ledgerOrBlank b.flash).bootFailCount.toNat - (b.awaits s).toNat

/-- A step in which only power loss disturbs the flash, and which neither
confirms, nor installs, nor rejects an image. -/
structure Board.Undecided (b : Board) (e : Event) : Prop where
  quiet : e.Quiet
  counted : CounterOk b.flash
  unconfirmed : ¬ e.IsConfirm
  noInstall : ∀ slot size crc ver, ¬ b.Makes e (.install slot size crc ver)
  noRollback : ¬ b.Makes e .rollback

/-- The ledger has the slot active and on trial. -/
structure Ledger.Tries (l : Ledger) (s : Slot) : Prop where
  active : l.active = s
  state : (l.slot s).state = stateTesting
  count : l.bootFailCount.toNat ≤ 3

/-- The slot is active and on trial; an attempt that awaits its jump is counted. -/
structure Board.OnTrial (s : Slot) (b : Board) : Prop where
  bounded : b.Bounded
  ledger : ∃ l, ledgerAt b.flash = some l ∧ l.Tries s
  counted : (b.awaits s).toNat ≤ (ledgerOrBlank b.flash).bootFailCount.toNat

section Trial

variable {b b' : Board} {e : Event} {s : Slot} {flash : Flash} {l : Ledger}

theorem Board.awaits_iff {u : Session} (hmode : b.mode = .update u) :
    b.awaits s = true ↔ u.next = some s ∧ u.proto.state ≠ .complete := by
  simp only [awaits, hmode, decide_eq_true_eq]

theorem Board.awaits_update {u : Session} :
    (⟨flash, .update u⟩ : Board).awaits s = true ↔ u.next = some s ∧ u.proto.state ≠ .complete :=
  awaits_iff rfl

theorem Ledger.Tries.start (h : l.Tries s) (size crc ver : UInt32) :
    ((Edit.start size crc ver).apply l).Tries s := by
  obtain ⟨rfl, hstate, hcount⟩ := h
  exact ⟨rfl, by rw [slot_start_active]; exact hstate, hcount⟩

/-- Counting one more attempt, of which there are at most three. -/
theorem Ledger.Tries.attempt (h : l.Tries s) (hcount : l.bootFailCount < maxBootFailures) :
    (Edit.attempt.apply l).Tries s ∧
      (Edit.attempt.apply l).bootFailCount.toNat = l.bootFailCount.toNat + 1 := by
  rw [UInt8.lt_iff_toNat_lt] at hcount
  change l.bootFailCount.toNat < 3 at hcount
  have hnext : (l.bootFailCount + 1).toNat = l.bootFailCount.toNat + 1 := by
    rw [UInt8.toNat_add, show (1 : UInt8).toNat = 1 from rfl, Nat.mod_eq_of_lt (by omega)]
  refine ⟨⟨h.active, h.state, ?_⟩, hnext⟩
  change (l.bootFailCount + 1).toNat ≤ 3
  omega

/-- On trial, a boot does not run the image as a confirmed one. -/
theorem Ledger.Tries.not_run {m : Metadata} (h : l.Tries s) (hl : ledgerAt flash = some l) :
    bootDecision flash ≠ .run m := by
  intro hdecision
  have hjustified := bootDecision_justified flash
  rw [hdecision] at hjustified
  obtain ⟨hread, hvalid, -⟩ := hjustified
  rw [ledgerAt_of_read hread, Option.some.injEq] at hl
  subst hl
  obtain ⟨rfl, hstate, -⟩ := h
  rw [Metadata.ledger_active, Metadata.ledger_slot] at hstate
  exact absurd (hvalid.symm.trans hstate) (by decide)

/-- What an undecided step does to the ledger: nothing, or the mark of a transfer,
or one more attempt, which only a boot makes. -/
theorem Board.OnTrial.ledger_step (h : b.OnTrial s) (hstep : b.Undecided e) :
    ∃ l', ledgerAt (b.step e).flash = some l' ∧ l'.Tries s ∧
      (l'.bootFailCount = (ledgerOrBlank b.flash).bootFailCount ∨
        b.mode = .reset ∧
          l'.bootFailCount.toNat = (ledgerOrBlank b.flash).bootFailCount.toNat + 1) := by
  obtain ⟨l, hl, htries⟩ := h.ledger
  have hblank := ledgerOrBlank_of_ledgerAt hl
  rcases OtaBoot.ledger_step h.bounded e with hold | ⟨edit, hmakes⟩
  · exact ⟨l, hold.trans hl, htries, .inl (by rw [hblank])⟩
  · have hnew := hmakes.2
    rw [hblank] at hnew ⊢
    cases edit_cause hmakes.1 with
    | @attempt _ _ _ m hmode hdecision =>
        have hjustified := bootDecision_justified b.flash
        rw [hdecision] at hjustified
        obtain ⟨hread, -, hcount, -⟩ := hjustified
        have hl' := ledgerAt_of_read hread
        rw [hl, Option.some.injEq] at hl'
        subst hl'
        obtain ⟨htries', hnext⟩ := htries.attempt hcount
        exact ⟨_, hnew, htries', .inr ⟨hmode, hnext⟩⟩
    | rollback => exact absurd hmakes hstep.noRollback
    | start => exact ⟨_, hnew, htries.start _ _ _, .inl rfl⟩
    | install => exact absurd hmakes (hstep.noInstall _ _ _ _)
    | confirm => exact absurd trivial hstep.unconfirmed

/-- A jump to the slot ends the wait for it. -/
theorem Board.OnTrial.jump (h : b.OnTrial s) (hjump : b.jumps e = some s) :
    b.awaits s = true ∧ (b.step e).awaits s = false ∧ (b.step e).flash = b.flash := by
  obtain ⟨l, hl, htries⟩ := h.ledger
  have hover : (b.step e).awaits s = false := by simp only [awaits, (jumps_eq_some hjump).1]
  rcases jump_cases h.bounded hjump with
    ⟨m, -, hdecision, hs, -⟩ | ⟨u, hmode, hnext, hstate, hflash⟩
  -- a rollback jumps to the other slot
  · have hjustified := bootDecision_justified b.flash
    rw [hdecision] at hjustified
    have hl' := ledgerAt_of_read hjustified.1
    rw [hl, Option.some.injEq] at hl'
    subst hl'
    exact absurd (hs.symm.trans htries.active.symm) m.active.other_ne
  · exact ⟨(awaits_iff hmode).mpr ⟨hnext, hstate⟩, hover, hflash⟩

/-- A wait that begins was counted by the boot that began it. -/
theorem Board.OnTrial.awaits_step (h : b.OnTrial s) (hstep : b.Undecided e)
    (horder : ¬ b.Overtakes e s) (hawaits : (b.step e).awaits s = true) :
    b.awaits s = true ∨ b.awaits s = false ∧
      (ledgerOrBlank (b.step e).flash).bootFailCount.toNat =
        (ledgerOrBlank b.flash).bootFailCount.toNat + 1 := by
  obtain ⟨l, hl, htries⟩ := h.ledger
  have heffect := step_effect_own h.bounded e
  generalize b.step e = b' at heffect hawaits
  cases heffect with
  | ignored => exact .inl hawaits
  | reset | restarted | returned => cases hawaits
  | @boot _ _ _ _ boot? hmode heffect =>
      right
      refine ⟨by simp only [awaits, hmode], ?_⟩
      have hjustified := bootDecision_justified b.flash
      cases heffect with
      | parked | rolledBack | rollbackFailed | attemptCut | rollbackCut =>
          simp [awaits, booted] at hawaits
      -- an image on trial is not started as a confirmed one
      | ran hdecision => exact absurd hdecision (htries.not_run hl)
      | @attempted m _ hdecision hstopped hquiet =>
          obtain rfl := hquiet hstep.quiet
          rw [hdecision] at hjustified
          obtain ⟨hread, -, hcount, -⟩ := hjustified
          have hnew := ledgerAt_completeImage hstep.counted
            (attemptRecord_sound (metadataRead_sound hread))
          have hl' := ledgerAt_of_read hread
          rw [hl, Option.some.injEq] at hl'
          subst hl'
          rw [ledgerOrBlank_of_ledgerAt hnew, attemptRecord_ledger, ledgerOrBlank_of_ledgerAt hl]
          exact (htries.attempt hcount).2
  | @poll u _ hmode =>
      left
      rw [awaits_update] at hawaits
      exact (awaits_iff hmode).mpr hawaits
  | @byte u _ _ _ byte _ _ proto? hmode hdrain heffect =>
      left
      rw [awaits_iff hmode]
      cases proto? with
      | none => cases hawaits
      | some proto =>
          obtain ⟨hnext, hstate⟩ := awaits_update.mp hawaits
          refine ⟨hnext, fun hcomplete => hstate ?_⟩
          simp only [Overtakes, hmode] at horder
          exact heffect.complete (byteAction_justified (h.bounded u hmode) byte) hcomplete
            fun hother => horder ⟨⟨_, _, _, hdrain⟩, hnext, hcomplete, hother⟩
  | @listened u proto hmode htail =>
      left
      rw [awaits_iff hmode]
      obtain ⟨hnext, hstate⟩ := awaits_update.mp hawaits
      refine ⟨hnext, fun hcomplete => ?_⟩
      rcases htail with hsame | ⟨hreceiving, -⟩
      · exact hstate (by rw [hsame]; exact hcomplete)
      · exact absurd (hcomplete.symm.trans hreceiving) (by decide)
  | @confirm _ _ _ running =>
      cases running <;> cases hawaits

/-- A jump is paid for by an attempt that was counted before. -/
theorem Board.onTrial_step (h : b.OnTrial s) (hstep : b.Undecided e)
    (horder : ¬ b.Overtakes e s) :
    (b.step e).OnTrial s ∧
      b.started s + (if b.jumps e = some s then 1 else 0) ≤ (b.step e).started s := by
  obtain ⟨l', hl', htries', hcount⟩ := h.ledger_step hstep
  have hblank := ledgerOrBlank_of_ledgerAt hl'
  have hcounted := h.counted
  -- the count never shrinks, and grows when a wait begins
  have hgrows : (ledgerOrBlank b.flash).bootFailCount.toNat ≤ l'.bootFailCount.toNat := by
    rcases hcount with hsame | ⟨-, hnext⟩
    · exact Nat.le_of_eq (by rw [hsame])
    · omega
  unfold started
  cases hawaits' : (b.step e).awaits s with
  | false =>
      refine ⟨⟨bounded_step h.bounded e, ⟨l', hl', htries'⟩, by rw [hawaits']; exact Nat.zero_le _⟩,
        ?_⟩
      by_cases hjump : b.jumps e = some s
      · obtain ⟨hawaits, -, hflash⟩ := h.jump hjump
        rw [hawaits, Bool.toNat_true] at hcounted
        rw [if_pos hjump, hawaits, hflash, Bool.toNat_true, Bool.toNat_false]
        omega
      · rw [if_neg hjump, hblank, Bool.toNat_false]
        omega
  | true =>
      have hnot : b.jumps e ≠ some s := fun hjump => by
        rw [(h.jump hjump).2.1] at hawaits'
        cases hawaits'
      rw [if_neg hnot, hblank, Bool.toNat_true]
      rcases h.awaits_step hstep horder hawaits' with hawaits | ⟨hawaits, hnext⟩
      · rw [hawaits, Bool.toNat_true] at hcounted ⊢
        refine ⟨⟨bounded_step h.bounded e, ⟨l', hl', htries'⟩, ?_⟩, by omega⟩
        rw [hawaits', hblank, Bool.toNat_true]
        omega
      · rw [hblank] at hnext
        rw [hawaits, Bool.toNat_false]
        refine ⟨⟨bounded_step h.bounded e, ⟨l', hl', htries'⟩, ?_⟩, by omega⟩
        rw [hawaits', hblank, Bool.toNat_true]
        omega

end Trial

/-- The board right after an image was put on trial. -/
theorem Board.onTrial_installed {b : Board} {e : Event} {s : Slot} {size crc ver : UInt32}
    (hb : b.Bounded) (hquiet : e.Quiet) (hmakes : b.Makes e (.install s size crc ver)) :
    (b.step e).OnTrial s ∧ (b.step e).started s = 0 := by
  have hblank := ledgerOrBlank_of_ledgerAt hmakes.2
  have hawaits : (b.step e).awaits s = false := by
    have heffect := step_effect_own hb e
    have hcause := edit_cause hmakes.1
    generalize hedit : Edit.install s size crc ver = edit at hcause
    cases hcause with
    | attempt | rollback | start | confirm => cases hedit
    | @install u byte faults seq hmode haction =>
        have hedited := hmakes.1
        generalize b.step (.byte byte faults) = b' at heffect
        cases heffect with
        | ignored hnone =>
            rw [hnone] at hedited
            cases hedited
        | @byte u' _ _ _ _ _ _ proto? hmode' _ heffect =>
            rw [hmode, Mode.update.injEq] at hmode'
            subst hmode'
            rw [haction] at heffect
            cases heffect with
            | performed htransfer =>
                refine Bool.eq_false_iff.mpr fun hawaits => ?_
                rw [Option.map_some, Option.getD_some, awaits_update] at hawaits
                exact hawaits.2 (by rw [htransfer]; rfl)
            | failed _ hready => exact absurd trivial (hready hquiet)
            | cut => rfl
  refine ⟨⟨bounded_step hb e, ⟨_, hmakes.2, ⟨rfl, ?_, Nat.zero_le _⟩⟩, ?_⟩, ?_⟩
  · rw [slot_install]
  · rw [hawaits]
    exact Nat.zero_le _
  · rw [started, hblank]
    exact Nat.zero_sub _

/-- An undisturbed step that stands for no edit, or for an attempt. -/
theorem Board.undecided_of_edit {b : Board} {e : Event} (hcounter : CounterOk b.flash)
    (hplain : e.Plain) (hedit : b.edit e = none ∨ b.edit e = some .attempt) : b.Undecided e := by
  refine ⟨hplain.quiet, hcounter, hplain.2, fun slot size crc ver hmakes => ?_, fun hmakes => ?_⟩
  all_goals
    have hmade := hmakes.1
    rcases hedit with hedit | hedit <;> rw [hedit] at hmade <;> cases hmade

/-- From the installation of an image on, until the next installation, a
confirmation or a rollback, there are no more starts of the image than the
record in force counts, and the record counts three at most; provided that no
frame overtakes a restart while the image awaits its start. -/
theorem starts_bounded {flash : Flash} {front : List Event} {e : Event} {s : Slot}
    {size crc ver : UInt32} (hquiet : e.Quiet)
    (hinstall : (Board.run ⟨flash, .reset⟩ front).Makes e (.install s size crc ver))
    {events : List Event}
    (hguard : Transition.Guarded Board.step (fun b e => b.Undecided e ∧ ¬ b.Overtakes e s)
      ((Board.run ⟨flash, .reset⟩ front).step e) events) :
    ∃ m, metadataRead (((Board.run ⟨flash, .reset⟩ front).step e).run events).flash = some m ∧
      Transition.count Board.step (fun b e => b.jumps e = some s)
        ((Board.run ⟨flash, .reset⟩ front).step e) events ≤ m.bootFailCount.toNat ∧
      m.bootFailCount ≤ maxBootFailures := by
  have hb := Board.bounded_run (Board.bounded_reset flash) front
  obtain ⟨htrial, hzero⟩ := Board.onTrial_installed hb hquiet hinstall
  have hinv := Transition.invariant_run Board.step (Board.OnTrial s)
    (fun b e h hg => (Board.onTrial_step h hg.1 hg.2).1) htrial hguard
  have hcount := Transition.count_le_of_step Board.step (Board.OnTrial s)
    (fun b e => b.jumps e = some s) (Board.started · s)
    (fun b e h hg => (Board.onTrial_step h hg.1 hg.2).1)
    (fun b e h hg => by simpa using (Board.onTrial_step h hg.1 hg.2).2) htrial hguard
  obtain ⟨l, hl, htries⟩ := hinv.ledger
  obtain ⟨m, hread, rfl⟩ := ledgerAt_eq_some hl
  refine ⟨m, hread, ?_, UInt8.le_iff_toNat_le.mpr htries.count⟩
  rw [hzero, Nat.zero_add] at hcount
  refine Nat.le_trans hcount (Nat.le_trans (Nat.sub_le _ _) ?_)
  exact Nat.le_of_eq (congrArg (·.bootFailCount.toNat) (ledgerOrBlank_of_ledgerAt hl))

/-- The image of slot A is started once after its installation, and counted. -/
theorem starts_bounded_secondInstall :
    ∃ front e m, front ++ [e] = secondInstall ∧
      metadataRead (((Board.blank.run front).step e).run
        [.pollEnd, .boot false 0 [], .poll 3000, .pollEnd]).flash = some m ∧
      Transition.count Board.step (fun b e => b.jumps e = some .a)
        ((Board.blank.run front).step e) [.pollEnd, .boot false 0 [], .poll 3000, .pollEnd] = 1 ∧
      1 ≤ m.bootFailCount.toNat ∧ m.bootFailCount ≤ maxBootFailures := by
  obtain ⟨flash, proto, hrun, hledger, hcounter, himage, -, hcomplete, hb⟩ :=
    Board.run_secondInstall
  obtain ⟨front, e, hsplit, hmakes⟩ := Board.run_secondInstall_makes
  have hplain : e.Plain := secondInstall_plain (by rw [hsplit]; simp)
  rw [hsplit, Board.run_append] at hrun
  have hinstalled : (Board.blank.run front).step e =
      ⟨flash, .update ((trialSession .b).draining proto 3000 455 true)⟩ := hrun
  have hrestart : Board.step ⟨flash, .update ((trialSession .b).draining proto 3000 455 true)⟩
      .pollEnd = ⟨flash, .reset⟩ := Board.step_pollEnd_complete (trialSession .b) 3000 hcomplete
  obtain ⟨m, -, -, hdecision⟩ := bootDecision_attempt hledger
    (congrArg Descriptor.state (slot_install _ _ _ _ _)) (by decide : (0 : UInt8) < 3) himage
  obtain ⟨flash', hboot, -⟩ := Board.boot_attempt false 0 hledger
    (congrArg Descriptor.state (slot_install _ _ _ _ _)) (by decide : (0 : UInt8) < 3) himage
    (by rw [hcounter]; decide)
  have hboot : Board.step ⟨flash, .reset⟩ (.boot false 0 []) =
      ⟨flash', .update (trialSession .a)⟩ := hboot
  have hpoll : Board.step ⟨flash', .update (trialSession .a)⟩ (.poll 3000) =
      ⟨flash', .update ((trialSession .a).draining protocolInit 3000 512 false)⟩ := rfl
  have hjump : Board.step
      ⟨flash', .update ((trialSession .a).draining protocolInit 3000 512 false)⟩ .pollEnd =
      ⟨flash', .app .a⟩ :=
    Board.step_pollEnd_idle (trialSession .a) 3000 rfl rfl (by decide) (by decide)
  have hcount : Transition.count Board.step (fun b e => b.jumps e = some .a)
      ((Board.blank.run front).step e) [.pollEnd, .boot false 0 [], .poll 3000, .pollEnd] = 1 := by
    rw [hinstalled]
    simp only [Transition.count, Board.jumps, hrestart, hboot, hpoll, hjump]
    decide
  have hguard : Transition.Guarded Board.step (fun b e => b.Undecided e ∧ ¬ b.Overtakes e .a)
      ((Board.blank.run front).step e) [.pollEnd, .boot false 0 [], .poll 3000, .pollEnd] := by
    have hcounted : Transition.Guarded Board.step (fun b _ => CounterOk b.flash)
        ((Board.blank.run front).step e) [.pollEnd, .boot false 0 [], .poll 3000, .pollEnd] :=
      counterOk_guarded (Board.bounded_step (Board.bounded_run (Board.bounded_reset _) _) _)
        (by rw [hinstalled, hcounter]; decide)
    obtain ⟨hc₁, hc₂, hc₃, hc₄, -⟩ := hcounted
    refine ⟨⟨Board.undecided_of_edit hc₁ ⟨rfl, id⟩ (.inl rfl), id⟩,
      ⟨Board.undecided_of_edit hc₂ ⟨rfl, id⟩ (.inr ?_), id⟩,
      ⟨Board.undecided_of_edit hc₃ ⟨rfl, id⟩ (.inl rfl), id⟩,
      ⟨Board.undecided_of_edit hc₄ ⟨rfl, id⟩ (.inl rfl), id⟩, trivial⟩
    rw [hinstalled, hrestart]
    simp only [Board.edit, hdecision]
    rfl
  obtain ⟨m, hread, hle, hmax⟩ := starts_bounded hplain.quiet hmakes hguard
  have hle' : Transition.count Board.step (fun b e => b.jumps e = some .a)
      ((Board.blank.run front).step e) [.pollEnd, .boot false 0 [], .poll 3000, .pollEnd] ≤
      m.bootFailCount.toNat := hle
  rw [hcount] at hle'
  exact ⟨front, e, m, hsplit.symm, hread, hcount, hle', hmax⟩

/-! ## An attempt that is not counted -/

/-- Dropping a transfer decides nothing. -/
theorem Board.undecided_abort {flash : Flash} (u : Session) {proto : Protocol} (nowMs : UInt32)
    {budget : Nat} {received : Bool} (seq : UInt16) (hcounter : CounterOk flash)
    (hhunting : proto.rx.Hunting) (hbudget : 11 ≤ budget) :
    Transition.Guarded Board.step Board.Undecided
      ⟨flash, .update (u.draining proto nowMs budget received)⟩ (frameEvents cmdAbort seq []) := by
  refine Board.guarded_frame cmdAbort seq [] hhunting (by simp) hbudget ?_ ?_
  · intro proto budget received byte _ hpending
    refine undecided_of_edit hcounter ⟨rfl, id⟩ (.inl ?_)
    simp only [edit, Session.draining, Protocol.byteAction, hpending, Action.edit]
  · intro rx byte haction
    refine undecided_of_edit hcounter ⟨rfl, id⟩ (.inl ?_)
    simp only [edit, Session.draining, haction, action_abort, Action.edit]

/-- The slot whose image awaits its start is updated after the other one, in the
same drain: the new image is started without having been counted. -/
theorem updated_twice_starts_uncounted :
    ∃ front e, front ++ [e] = secondInstall ++ installEvents .b vectorsOnly 3 ∧ e.Quiet ∧
      (Board.blank.run front).Makes e
        (.install .b (UInt32.ofNat vectorsOnly.length) (crc32Compute vectorsOnly) 3) ∧
      Transition.Guarded Board.step Board.Undecided ((Board.blank.run front).step e)
        (frameEvents cmdAbort 3 [] ++ [.pollEnd]) ∧
      Transition.count Board.step (fun b e => b.jumps e = some .b)
        ((Board.blank.run front).step e) (frameEvents cmdAbort 3 [] ++ [.pollEnd]) = 1 ∧
      (ledgerOrBlank (((Board.blank.run front).step e).run
        (frameEvents cmdAbort 3 [] ++ [.pollEnd])).flash).bootFailCount = 0 := by
  obtain ⟨flash, proto, hrun, hledger, hcounter, -, hhunting, -, hb⟩ := Board.run_secondInstall
  have hfree : freeSlot flash = .b := by
    rw [freeSlot_eq, ledgerOrBlank_of_ledgerAt hledger]
    rfl
  obtain ⟨flash', proto', hinstall, hinstalled, hhunting', -, hb'⟩ :=
    Board.run_install flash (trialSession .b) 3000 true vectorsOnly_oneBlock 3
      (by rw [hcounter]; decide) (.inl hhunting) hb (by decide : _ ≤ 455)
  obtain ⟨front, e, hsplit, hmakes⟩ :=
    Board.run_install_makes flash (trialSession .b) 3000 true vectorsOnly_oneBlock 3
      (by rw [hcounter]; decide) (.inl hhunting) hb (by decide : _ ≤ 455)
  have hledger' := hinstalled.ledger
  rw [hfree] at hinstall hsplit hmakes hledger'
  obtain ⟨proto'', habort, hidle⟩ := Board.run_abort flash' (trialSession .b) 3000 true 3
    (.inl hhunting') hb' (by decide : 11 ≤ 455 - (49 + vectorsOnly.length))
  have hplain : e.Plain := installEvents_plain (by rw [hsplit]; simp)
  have hstep : (Board.blank.run (secondInstall ++ front)).step e =
      ⟨flash', .update ((trialSession .b).draining proto' 3000
        (455 - (49 + vectorsOnly.length)) true)⟩ := by
    rw [hsplit, Board.run_append] at hinstall
    rw [Board.run_append, hrun]
    exact hinstall
  have hjump : Board.step
      ⟨flash', .update ((trialSession .b).draining proto'' 3000
        (455 - (49 + vectorsOnly.length) - 11) true)⟩ .pollEnd = ⟨flash', .app .b⟩ :=
    Board.step_pollEnd_idle (trialSession .b) 3000 hidle rfl (by decide) (by decide)
  have hcounter' : CounterOk flash' :=
    counterOk_iff.mpr (by rw [hinstalled.counter, hcounter]; decide)
  refine ⟨secondInstall ++ front, e, by rw [hsplit, List.append_assoc], hplain.quiet,
    ?_, ?_, ?_, ?_⟩
  · rw [Board.run_append, hrun]
    exact hmakes
  · rw [hstep, Transition.guarded_append, ← Board.run, habort]
    refine ⟨Board.undecided_abort _ _ 3 hcounter' (.inl hhunting') (by decide), ?_, trivial⟩
    exact Board.undecided_of_edit hcounter' ⟨rfl, id⟩ (.inl rfl)
  · have hbytes (e : Event) (he : e ∈ frameEvents cmdAbort 3 []) (b : Board) :
        decide (b.jumps e = some .b) = false := by
      obtain ⟨byte, -, rfl⟩ := List.mem_map.mp he
      rw [Board.jumps_byte]
      rfl
    rw [hstep, Transition.count_append, Transition.count_eq_zero hbytes, ← Board.run, habort]
    simp only [Transition.count, Board.jumps, hjump]
    decide
  · rw [hstep, Board.run_append, habort, Board.run_cons, hjump]
    change (ledgerOrBlank flash').bootFailCount = 0
    rw [ledgerOrBlank_of_ledgerAt hledger']
    rfl

end OtaBoot
