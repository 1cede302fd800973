import OtaBoot.Properties.Atomicity
import OtaBoot.Properties.Rollback

/-!
# Trials that are counted

An attempt is counted by a metadata write whose outcome `main` does not look at,
and a rollback starts the count anew. So an image on trial is run uncounted when
the write of its attempt does not take effect, and when a rollback leads to it.
-/

namespace OtaBoot

open Storage

/-! ## What a boot does -/

/-- The image on trial has an attempt left and passes its checks. -/
structure Attempts (flash : Flash) (m : Metadata) : Prop where
  read : metadataRead flash = some m
  testing : (m.slot m.active).state = stateTesting
  remaining : m.bootFailCount < maxBootFailures
  intact : imageIsIntact flash m m.active = true

/-- The image on trial has had its attempts, and the other slot holds one that
passes its checks. -/
structure FallsBack (flash : Flash) (m : Metadata) : Prop where
  read : metadataRead flash = some m
  testing : (m.slot m.active).state = stateTesting
  exhausted : m.bootFailCount ≥ maxBootFailures
  present : (m.slot m.active.other).state ≠ stateEmpty
  intact : imageIsIntact flash m m.active.other = true

section Boots

variable {flash : Flash} {m : Metadata} (otaRequest : Bool) (faults : List Fault)

theorem attempts_of_decision (h : bootDecision flash = .attempt m) : Attempts flash m := by
  have hjustified := bootDecision_justified flash
  rw [h] at hjustified
  exact ⟨hjustified.1, hjustified.2.1, hjustified.2.2.1, hjustified.2.2.2⟩

theorem fallsBack_of_decision (h : bootDecision flash = .rollback m) : FallsBack flash m := by
  have hjustified := bootDecision_justified flash
  rw [h] at hjustified
  exact ⟨hjustified.1, hjustified.2.1, hjustified.2.2.1, hjustified.2.2.2.1, hjustified.2.2.2.2⟩

theorem not_valid_of_testing {state : UInt8} (h : state = stateTesting) : ¬ state = stateValid := by
  rw [h]
  decide

/-- Whatever the write reports, the attempt is made. -/
theorem Attempts.run (h : Attempts flash m) :
    (bootMain otaRequest).run ⟨flash, faults, []⟩ =
      (metadataWrite (attemptRecord m) >>= fun _ =>
        pure (Boot.updateMode (listenMs otaRequest) (some m.active))).run ⟨flash, faults, []⟩ := by
  unfold bootMain
  rw [Faulty.run_bind_done (Faulty.run_read _)]
  simp only [h.read, if_neg (not_valid_of_testing h.testing), if_pos h.testing,
    if_neg (UInt8.not_le.mpr h.remaining), if_pos h.intact]
  rfl

/-- Only a write that was reported as done leads to the fallback. -/
theorem FallsBack.fares (h : FallsBack flash m) :
    (bootMain otaRequest).Fares 7 (writePath flash (rollbackRecord m))
      (· = .jump m.active.other) (· = .updateMode 0 none) := by
  have hsound := rollbackRecord_sound (metadataRead_sound h.read)
  have hother : ¬ ((m.slot m.active.other).state = stateEmpty ∨
      ¬ imageIsIntact flash m m.active.other = true) := by
    rw [not_or, Decidable.not_not]
    exact ⟨h.present, h.intact⟩
  unfold bootMain
  refine .read (s := flash) rfl ?_
  simp only [h.read, if_neg (not_valid_of_testing h.testing), if_pos h.testing,
    if_pos h.exhausted, if_neg hother]
  refine .bind 0 (metadataWrite_fares flash _) (fun st hst => ?_) fun st hst => ?_
  · have hboot : slotLooksBootable (completeImage flash (rollbackRecord m))
        m.active.other.addr = true := by
      have haddr := m.active.other.addr_bounds
      rw [slotLooksBootable_congr ((completeImage_stopped _ _).agreeOn (by omega))]
      exact looksBootable_of_intact h.intact
    refine .read (s := completeImage flash (rollbackRecord m)) rfl ?_
    rw [if_pos ⟨hst.mpr hsound, hboot⟩]
    exact .pure rfl
  · refine ⟨.updateMode 0 none, ?_, rfl⟩
    have hstop (after : Flash) : ¬ (st = .ok ∧
        slotLooksBootable after m.active.other.addr = true) := fun hjump => hst hjump.1
    simp only [if_neg (hstop _)]
    rfl

end Boots

/-! ## What is counted -/

/-- A commitment to an image on trial is backed by a record that counts it. -/
def Counted (before : Flash) (boot : Boot) (after : Flash) : Prop :=
  ∀ m s, metadataRead before = some m → (m.slot s).state = stateTesting →
    (∀ limitMs, boot = .updateMode limitMs (some s) →
      ∃ m', metadataRead after = some m' ∧ m'.active = s ∧
        m'.bootFailCount.toNat = m.bootFailCount.toNat + 1) ∧
    (boot = .jump s →
      ∃ m', metadataRead after = some m' ∧ m'.active = s ∧ 1 ≤ m'.bootFailCount.toNat)

section Counts

variable {flash after : Flash} {m : Metadata}

theorem toNat_succ_of_remaining (h : m.bootFailCount < maxBootFailures) :
    (m.bootFailCount + 1).toNat = m.bootFailCount.toNat + 1 := by
  rw [UInt8.lt_iff_toNat_lt] at h
  change m.bootFailCount.toNat < 3 at h
  rw [UInt8.toNat_add, show (1 : UInt8).toNat = 1 from rfl, Nat.mod_eq_of_lt (by omega)]

theorem counted_parked (before after : Flash) : Counted before (.updateMode 0 none) after := by
  intro m s _ _
  exact ⟨fun _ hboot => absurd hboot (by simp), Boot.noConfusion⟩

/-- Without a trial nothing is run, or a confirmed image. -/
theorem counted_of_no_trial {quiet : Prop} {otaRequest : Bool} {boot : Boot}
    (heffect : BootEffect quiet otaRequest flash after (some boot))
    (hattempt : ∀ m, bootDecision flash ≠ .attempt m)
    (hrollback : ∀ m, bootDecision flash ≠ .rollback m) : Counted flash boot after := by
  cases heffect with
  | parked => exact counted_parked _ _
  | ran hdecision =>
      have hjustified := bootDecision_justified flash
      rw [hdecision] at hjustified
      obtain ⟨hread, hvalid, -⟩ := hjustified
      intro m s hread' htesting
      rw [hread, Option.some.injEq] at hread'
      subst hread'
      refine ⟨fun _ hboot => ?_, Boot.noConfusion⟩
      cases hboot
      exact absurd hvalid (not_valid_of_testing htesting)
  | attempted hdecision => exact absurd hdecision (hattempt _)
  | rolledBack hdecision => exact absurd hdecision (hrollback _)
  | rollbackFailed hdecision => exact absurd hdecision (hrollback _)

/-- An attempt is counted when its record is the one in force. -/
theorem Attempts.counted_iff (h : Attempts flash m) (limitMs : UInt32)
    (hafter : metadataRead after = metadataRead flash ∨
      metadataRead after = some (writtenRecord flash (attemptRecord m))) :
    Counted flash (.updateMode limitMs (some m.active)) after ↔
      metadataRead after = some (writtenRecord flash (attemptRecord m)) := by
  have hnext := toNat_succ_of_remaining h.remaining
  constructor
  · intro hcounted
    obtain ⟨m', hread, -, hcount⟩ := (hcounted m m.active h.read h.testing).1 limitMs rfl
    refine hafter.resolve_left fun hold => ?_
    rw [hold, h.read, Option.some.injEq] at hread
    subst hread
    omega
  · intro hread m₀ s hread₀ _
    rw [h.read, Option.some.injEq] at hread₀
    subst hread₀
    refine ⟨fun _ hboot => ?_, Boot.noConfusion⟩
    cases hboot
    exact ⟨_, hread, rfl, hnext⟩

/-- The record of a rollback counts nothing. -/
theorem FallsBack.counted_iff (h : FallsBack flash m) :
    Counted flash (.jump m.active.other) (completeImage flash (rollbackRecord m)) ↔
      (m.slot m.active.other).state ≠ stateTesting := by
  constructor
  · intro hcounted htesting
    obtain ⟨m', hread, hactive, hcount⟩ := (hcounted m _ h.read htesting).2 rfl
    rcases (completeImage_stopped flash (rollbackRecord m)).metadataRead with hold | ⟨-, -, hnew⟩
    · rw [hold, h.read, Option.some.injEq] at hread
      subst hread
      exact m.active.ne_other hactive
    · rw [hnew, Option.some.injEq] at hread
      subst hread
      exact absurd hcount (by decide : ¬ 1 ≤ (0 : UInt8).toNat)
  · intro hother m₀ s hread₀ htesting
    rw [h.read, Option.some.injEq] at hread₀
    subst hread₀
    refine ⟨fun _ => Boot.noConfusion, fun hboot => ?_⟩
    cases hboot
    exact absurd htesting hother

/-- What an attempt leaves, by the fate of its write. -/
theorem Attempts.counts_iff (h : Attempts flash m) (otaRequest : Bool) (faults : List Fault) :
    (∀ boot w, (bootMain otaRequest).run ⟨flash, faults, []⟩ = (.done boot, w) →
      Counted flash boot w.state) ↔
      fate 7 faults = .cut ∨
        (fate 7 faults = .done ∨ fate 7 faults = .unreported) ∧ CounterOk flash := by
  have hsound := attemptRecord_sound (metadataRead_sound h.read)
  have hcomplete : Counted flash (.updateMode (listenMs otaRequest) (some m.active))
      (completeImage flash (attemptRecord m)) ↔ CounterOk flash := by
    have hstopped := (completeImage_stopped flash (attemptRecord m)).metadataRead
    rw [h.counted_iff _ (hstopped.imp_right fun hnew => hnew.2.2)]
    refine ⟨fun hnew => ?_, fun hcounter => metadataRead_completeImage hcounter hsound⟩
    by_contra hcounter
    simp only [CounterOk, not_forall] at hcounter
    obtain ⟨old, hold, hlast⟩ := hcounter
    have hlt := old.counter.toNat_lt
    rw [metadataRead_completeImage_wrapped hold (by omega) hsound, Option.some.injEq] at hnew
    -- the counter that is written is not the last one
    have hzero := congrArg (fun m : Metadata => m.counter.toNat) hnew
    simp only [writtenRecord, stamped_counter, selectTarget_counter, hold, UInt32.toNat_add,
      UInt32.toNat_one] at hzero
    omega
  have hfares := metadataWrite_fares flash (attemptRecord m) faults []
  have heffects := effects_of_fate 7 faults
  simp only [writePath_zero, writePath_seven] at hfares
  rw [h.run otaRequest faults]
  cases hfate : fate 7 faults with
  | done =>
      rw [hfate] at hfares
      obtain ⟨st, calls, hrun, -⟩ := hfares
      rw [Faulty.run_bind_done hrun]
      simpa using hcomplete
  | unreported =>
      rw [hfate] at hfares heffects
      obtain ⟨st, w, hrun, -, hstate⟩ := hfares
      rw [heffects, writePath_seven] at hstate
      rw [Faulty.run_bind_done hrun]
      simpa [hstate] using hcomplete
  | failed =>
      rw [hfate] at hfares heffects
      obtain ⟨st, w, hrun, -, hstate⟩ := hfares
      rw [Faulty.run_bind_done hrun]
      have hread : metadataRead w.state = metadataRead flash := by
        rw [hstate]
        exact metadataRead_writePath heffects
      have hlost : ¬ Counted flash (.updateMode (listenMs otaRequest) (some m.active)) w.state := by
        rw [h.counted_iff _ (.inl hread), hread, h.read]
        intro hsame
        have hcount := congrArg Metadata.bootFailCount (Option.some.inj hsame)
        have hnext := toNat_succ_of_remaining h.remaining
        rw [show (writtenRecord flash (attemptRecord m)).bootFailCount = m.bootFailCount + 1 from
          rfl] at hcount
        rw [← hcount] at hnext
        omega
      simpa using hlost
  | cut =>
      rw [hfate] at hfares
      obtain ⟨w, hrun, -⟩ := hfares
      rw [Faulty.run_bind_cut hrun]
      simp

/-- What a rollback leaves, by the fate of its write. -/
theorem FallsBack.counts_iff (h : FallsBack flash m) (otaRequest : Bool) (faults : List Fault) :
    (∀ boot w, (bootMain otaRequest).run ⟨flash, faults, []⟩ = (.done boot, w) →
      Counted flash boot w.state) ↔
      ((m.slot m.active.other).state = stateTesting → fate 7 faults ≠ .done) := by
  have hfares := h.fares otaRequest faults []
  simp only [writePath_zero, writePath_seven] at hfares
  cases hfate : fate 7 faults with
  | done =>
      rw [hfate] at hfares
      obtain ⟨boot, calls, hrun, rfl⟩ := hfares
      rw [hrun]
      simpa using h.counted_iff
  | unreported | failed =>
      rw [hfate] at hfares
      obtain ⟨boot, w, hrun, rfl, -⟩ := hfares
      rw [hrun]
      simpa using counted_parked flash w.state
  | cut =>
      rw [hfate] at hfares
      obtain ⟨w, hrun, -⟩ := hfares
      rw [hrun]
      simp

/-- An image on trial is run counted when the write of its attempt takes effect, and
when no rollback leads to it; otherwise it is not. -/
theorem trials_counted_iff (flash : Flash) (otaRequest : Bool) (faults : List Fault) :
    (∀ boot w, (bootMain otaRequest).run ⟨flash, faults, []⟩ = (.done boot, w) →
      Counted flash boot w.state) ↔
      (∀ m, Attempts flash m → fate 7 faults = .cut ∨
        (fate 7 faults = .done ∨ fate 7 faults = .unreported) ∧ CounterOk flash) ∧
      ∀ m, FallsBack flash m → (m.slot m.active.other).state = stateTesting →
        fate 7 faults ≠ .done := by
  refine ⟨fun hcounted => ⟨fun m hm => (hm.counts_iff otaRequest faults).mp hcounted,
    fun m hm => (hm.counts_iff otaRequest faults).mp hcounted⟩, ?_⟩
  rintro ⟨hattempt, hrollback⟩
  cases hdecision : bootDecision flash with
  | attempt m =>
      have hm := attempts_of_decision hdecision
      exact (hm.counts_iff otaRequest faults).mpr (hattempt m hm)
  | rollback m =>
      have hm := fallsBack_of_decision hdecision
      exact (hm.counts_iff otaRequest faults).mpr (hrollback m hm)
  | park | run m =>
      -- nothing is run, or a confirmed image
      intro boot w hrun
      have heffect := (bootMain_triple (c := .harsh) flash (fun _ _ => trivial) otaRequest).run_from
        faults fun _ _ => trivial
      rw [hrun] at heffect
      refine counted_of_no_trial heffect.1 (fun m h => ?_) fun m h => ?_
      · rw [hdecision] at h
        cases h
      · rw [hdecision] at h
        cases h

end Counts

/-! ## A trial that is not counted -/

/-- Slot A is on trial, with all its attempts left. -/
def onTrial : Metadata :=
  { bothConfirmed with slotA := { confirmedInfo with state := stateTesting }, activeSlot := 0 }

theorem onTrial_attempts : ∃ m, Attempts (stocked vectorsOnly vectorsOnly onTrial) m := by
  have hsound : onTrial.Sound := by
    refine ⟨by decide, fun s => ?_, fun s => ?_⟩
    · cases s
      · exact (by decide : stateTesting ≤ stateValid)
      · exact (by decide : stateValid ≤ stateValid)
    · cases s <;> exact (by decide : UInt32.ofNat vectorsOnly.length ≤ slotSize)
  obtain ⟨m, hread, hm, -⟩ := stocked_read (by decide : vectorsOnly.length ≤ _)
    (by decide : vectorsOnly.length ≤ _) hsound
  have hactive : m.active = .a := congrArg Ledger.active hm
  have hcontent : (stocked vectorsOnly vectorsOnly onTrial).read Slot.a.addr.toNat
      vectorsOnly.length = vectorsOnly := stocked_slotA (by decide)
  have hdescribes :
      m.ledger.Describes (stocked vectorsOnly vectorsOnly onTrial) .a vectorsOnly := by
    have hslot : m.ledger.slot .a = { confirmedInfo with state := stateTesting }.descriptor := by
      rw [hm]
      rfl
    refine ⟨vectorsOnly_oneBlock.sendable, ?_, ?_, hcontent, looksBootable_vectorsOnly hcontent⟩
    · rw [hslot, SlotInfo.descriptor, confirmedInfo]
    · rw [hslot, SlotInfo.descriptor, confirmedInfo]
  refine ⟨m, hread, ?_, ?_, ?_⟩
  · rw [hactive]
    exact congrArg (fun l => (l.slot .a).state) hm
  · have hcount : m.bootFailCount = 0 := congrArg Ledger.bootFailCount hm
    rw [hcount]
    decide
  · rw [hactive]
    exact hdescribes.intact

/-- The erase of the metadata page reports an error: the image is run all the same, and
the record in force has not counted it. -/
theorem failed_attempt_uncounted :
    ∃ boot w, (bootMain false).run ⟨stocked vectorsOnly vectorsOnly onTrial, [.lost], []⟩ =
        (.done boot, w) ∧
      ¬ Counted (stocked vectorsOnly vectorsOnly onTrial) boot w.state := by
  obtain ⟨m, hm⟩ := onTrial_attempts
  by_contra hall
  have hcounted := (hm.counts_iff false [.lost]).mp fun boot w hrun =>
    by_contra fun hnot => hall ⟨boot, w, hrun, hnot⟩
  rcases hcounted with hcut | ⟨hdone | hunreported, -⟩
  · exact absurd hcut (by decide)
  · exact absurd hdone (by decide)
  · exact absurd hunreported (by decide)

end OtaBoot
