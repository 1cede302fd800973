import OtaBoot.Action

/-!
# What a boot decides

`main` looks at the record in force and at the images it describes, and decides
between four things. `Decision` is that decision, `BootEffect` what flash and
board are after acting on it, and `ConfirmEffect` the same for the application
that confirms itself.
-/

namespace OtaBoot

open Storage

/-- The listen window of a boot. -/
def listenMs (otaRequest : Bool) : UInt32 := if otaRequest then otaWaitMs else bootWaitMs

inductive Decision where
  /-- Wait for an update, without end. -/
  | park
  /-- Listen, then run the confirmed image. -/
  | run (m : Metadata)
  /-- Count one more attempt, listen, then run the image on trial. -/
  | attempt (m : Metadata)
  /-- Reject the image on trial and run the other one. -/
  | rollback (m : Metadata)
  deriving DecidableEq, Repr

/-- The decision of `main`. -/
def bootDecision (flash : Flash) : Decision :=
  match metadataRead flash with
  | none => .park
  | some m =>
      let st := (m.slot m.active).state
      if st = stateValid then
        if imageIsIntact flash m m.active then .run m else .park
      else if st = stateTesting then
        if m.bootFailCount ≥ maxBootFailures then
          if (m.slot m.active.other).state = stateEmpty ∨ ¬ imageIsIntact flash m m.active.other
          then .park else .rollback m
        else if imageIsIntact flash m m.active then .attempt m
        else .park
      else .park

/-- What is known when a boot decides. -/
def Decision.Justified (flash : Flash) : Decision → Prop
  | park => True
  | run m =>
      metadataRead flash = some m ∧ (m.slot m.active).state = stateValid ∧
        imageIsIntact flash m m.active = true
  | attempt m =>
      metadataRead flash = some m ∧ (m.slot m.active).state = stateTesting ∧
        m.bootFailCount < maxBootFailures ∧ imageIsIntact flash m m.active = true
  | rollback m =>
      metadataRead flash = some m ∧ (m.slot m.active).state = stateTesting ∧
        m.bootFailCount ≥ maxBootFailures ∧ (m.slot m.active.other).state ≠ stateEmpty ∧
        imageIsIntact flash m m.active.other = true

theorem bootDecision_justified (flash : Flash) : (bootDecision flash).Justified flash := by
  unfold bootDecision
  cases hread : metadataRead flash with
  | none => trivial
  | some m =>
      dsimp only
      split
      next hvalid =>
        split
        next hintact => exact ⟨hread, hvalid, hintact⟩
        next => trivial
      next =>
        split
        next htesting =>
          split
          next hcount =>
            split
            next => trivial
            next hother =>
              rw [not_or, Decidable.not_not] at hother
              exact ⟨hread, htesting, hcount, hother⟩
          next hcount =>
            split
            next hintact => exact ⟨hread, htesting, UInt8.not_le.mp hcount, hintact⟩
            next => trivial
        next => trivial

/-- Flash after a boot, and where `main` got to; nowhere after a power cut. -/
inductive BootEffect (quiet : Prop) (otaRequest : Bool) (before : Flash) :
    Flash → Option Boot → Prop
  | parked (hdecision : bootDecision before = .park) :
      BootEffect quiet otaRequest before before (some (.updateMode 0 none))
  | ran {m : Metadata} (hdecision : bootDecision before = .run m) :
      BootEffect quiet otaRequest before before
        (some (.updateMode (listenMs otaRequest) (some m.active)))
  | attempted {m : Metadata} {after : Flash} (hdecision : bootDecision before = .attempt m)
      (hstopped : WriteStopped before (attemptRecord m) after)
      (hquiet : quiet → after = completeImage before (attemptRecord m)) :
      BootEffect quiet otaRequest before after
        (some (.updateMode (listenMs otaRequest) (some m.active)))
  | attemptCut {m : Metadata} {after : Flash} (hdecision : bootDecision before = .attempt m)
      (hstopped : WriteStopped before (attemptRecord m) after) :
      BootEffect quiet otaRequest before after none
  | rolledBack {m : Metadata} (hdecision : bootDecision before = .rollback m) :
      BootEffect quiet otaRequest before (completeImage before (rollbackRecord m))
        (some (.jump m.active.other))
  | rollbackFailed {m : Metadata} {after : Flash} (hdecision : bootDecision before = .rollback m)
      (hstopped : WriteStopped before (rollbackRecord m) after) (hnoisy : ¬ quiet) :
      BootEffect quiet otaRequest before after (some (.updateMode 0 none))
  | rollbackCut {m : Metadata} {after : Flash} (hdecision : bootDecision before = .rollback m)
      (hstopped : WriteStopped before (rollbackRecord m) after) :
      BootEffect quiet otaRequest before after none

/-- An image that is intact looks bootable. -/
theorem looksBootable_of_intact {flash : Flash} {m : Metadata} {slot : Slot}
    (h : imageIsIntact flash m slot = true) : slotLooksBootable flash slot.addr = true := by
  unfold imageIsIntact at h
  dsimp only at h
  split at h
  · cases h
  split at h
  · cases h
  next hboot => simpa using hboot

/-- Looking at a slot reads nothing but the slot. -/
theorem slotLooksBootable_congr {flash flash' : Flash} {slot : Slot}
    (h : Memory.AgreeOn slot.addr.toNat 8 flash flash') :
    slotLooksBootable flash slot.addr = slotLooksBootable flash' slot.addr := by
  have hword {addr : Nat} (hlo : slot.addr.toNat ≤ addr) (hhi : addr + 4 ≤ slot.addr.toNat + 8) :
      wordAt flash addr = wordAt flash' addr := by
    simp only [wordAt]
    rw [h _ (by omega) (by omega), h _ (by omega) (by omega), h _ (by omega) (by omega),
      h _ (by omega) (by omega)]
  have haddr := slot.addr_bounds
  have hreset : (slot.addr + 4).toNat = slot.addr.toNat + 4 := by
    rw [UInt32.toNat_add, show (4 : UInt32).toNat = 4 from rfl, Nat.mod_eq_of_lt (by omega)]
  simp only [slotLooksBootable, hreset, hword (Nat.le_refl _) (by omega),
    hword (Nat.le_add_right _ 4) (Nat.le_refl _)]

/-- An image is judged by its slot, its size and its CRC. -/
theorem imageIsIntact_congr {flash flash' : Flash} {m m' : Metadata} {slot : Slot}
    (hsize : (m.slot slot).size = (m'.slot slot).size)
    (hcrc : (m.slot slot).crc32 = (m'.slot slot).crc32)
    (h : Memory.AgreeOn slot.addr.toNat 491520 flash flash') :
    imageIsIntact flash m slot = imageIsIntact flash' m' slot := by
  simp only [imageIsIntact, hsize, hcrc,
    slotLooksBootable_congr (h.mono (Nat.le_refl _) (by omega))]
  split
  · rfl
  next hbounds =>
    rw [not_or, UInt32.not_lt, UInt32.le_iff_toNat_le] at hbounds
    have hread := (h.mono (Nat.le_refl _) (Nat.add_le_add_left hbounds.2 _)).read_eq
    rw [hread]

section Effects

variable {c : Climate Flash FlashCall} (before : Flash)

/-- `main` acts on its decision. -/
theorem bootMain_triple (hcalls : ∀ flash call, c.calls flash call) (otaRequest : Bool) :
    Triple c (· = before) (bootMain otaRequest)
      (fun boot after => BootEffect c.ReportsNoError otaRequest before after (some boot))
      (fun after => BootEffect c.ReportsNoError otaRequest before after none) := by
  -- `hdecision` is unfolded along with the tests of `main`
  have hdecision : bootDecision before = bootDecision before := rfl
  conv at hdecision => rhs; unfold bootDecision
  unfold bootMain
  refine Triple.read_at ?_
  cases hread : metadataRead before with
  | none =>
      rw [hread] at hdecision
      exact Triple.pure_at (.parked hdecision)
  | some m =>
      have hsound := metadataRead_sound hread
      rw [hread] at hdecision
      dsimp only at hdecision ⊢
      refine Triple.ite (fun hvalid => ?_) fun hvalid => ?_
      · rw [if_pos hvalid] at hdecision
        refine Triple.ite (fun hintact => ?_) fun hintact => ?_
        · rw [if_pos hintact] at hdecision
          exact Triple.pure_at (.ran hdecision)
        · rw [if_neg hintact] at hdecision
          exact Triple.pure_at (.parked hdecision)
      rw [if_neg hvalid] at hdecision
      refine Triple.ite (fun htesting => ?_) fun htesting => ?_
      · rw [if_pos htesting] at hdecision
        refine Triple.ite (fun hcount => ?_) fun hcount => ?_
        · rw [if_pos hcount] at hdecision
          refine Triple.ite (fun hother => ?_) fun hother => ?_
          · rw [if_pos hother] at hdecision
            exact Triple.pure_at (.parked hdecision)
          rw [if_neg hother] at hdecision
          rw [not_or, Decidable.not_not] at hother
          refine Triple.bind ((metadataWrite_triple _ _ (hcalls _ _) (hcalls _ _)).conseq
            (fun _ h => h) (fun _ _ h => h) fun after h => BootEffect.rollbackCut hdecision h)
            fun written => Triple.of_state fun after hafter => ?_
          obtain ⟨hstopped, hok, hquiet⟩ := hafter
          refine Triple.read_at (Triple.ite (fun hjump => Triple.pure_at ?_) fun hjump =>
            Triple.pure_at ?_)
          · obtain rfl := (hok hjump.1).2
            exact .rolledBack hdecision
          -- without an error the write succeeds, and the image still looks bootable
          · refine .rollbackFailed hdecision hstopped fun h => hjump ?_
            have haddr := m.active.other.addr_bounds
            refine ⟨hquiet h (rollbackRecord_sound hsound), ?_⟩
            rw [slotLooksBootable_congr (hstopped.agreeOn (by omega))]
            exact looksBootable_of_intact hother.2
        · rw [if_neg hcount] at hdecision
          refine Triple.ite (fun hintact => ?_) fun hintact => ?_
          · rw [if_pos hintact] at hdecision
            refine Triple.bind ((metadataWrite_triple _ _ (hcalls _ _) (hcalls _ _)).conseq
              (fun _ h => h) (fun _ _ h => h) fun after h => BootEffect.attemptCut hdecision h)
              fun written => Triple.pure ?_
            rintro after ⟨hstopped, hok, hquiet⟩
            exact .attempted hdecision hstopped
              fun h => (hok (hquiet h (attemptRecord_sound hsound))).2
          · rw [if_neg hintact] at hdecision
            exact Triple.pure_at (.parked hdecision)
      · rw [if_neg htesting] at hdecision
        exact Triple.pure_at (.parked hdecision)

/-- The record that an application running in a slot has to confirm, if any. -/
def toConfirm (flash : Flash) (selfSlot : Slot) : Option Metadata :=
  match metadataRead flash with
  | none => none
  | some m =>
      if (m.slot selfSlot).state = stateValid ∧ m.bootFailCount = 0 then none else some m

theorem toConfirm_eq_some {flash : Flash} {selfSlot : Slot} {m : Metadata}
    (h : toConfirm flash selfSlot = some m) :
    metadataRead flash = some m ∧
      ¬ ((m.slot selfSlot).state = stateValid ∧ m.bootFailCount = 0) := by
  unfold toConfirm at h
  cases hread : metadataRead flash with
  | none =>
      rw [hread] at h
      cases h
  | some m' =>
      rw [hread] at h
      dsimp only at h
      split at h
      · cases h
      next hneeded =>
        cases h
        exact ⟨rfl, hneeded⟩

/-- Flash after `confirm_startup`, and whether the application still runs. -/
inductive ConfirmEffect (quiet : Prop) (selfSlot : Slot) (before : Flash) : Flash → Bool → Prop
  | needless (hnone : toConfirm before selfSlot = none) :
      ConfirmEffect quiet selfSlot before before true
  | written {m : Metadata} {after : Flash} (hsome : toConfirm before selfSlot = some m)
      (hstopped : WriteStopped before (confirmRecord m selfSlot) after)
      (hquiet : quiet → after = completeImage before (confirmRecord m selfSlot)) :
      ConfirmEffect quiet selfSlot before after true
  | cut {m : Metadata} {after : Flash} (hsome : toConfirm before selfSlot = some m)
      (hstopped : WriteStopped before (confirmRecord m selfSlot) after) :
      ConfirmEffect quiet selfSlot before after false

theorem confirmStartup_triple (hcalls : ∀ flash call, c.calls flash call) (selfSlot : Slot) :
    Triple c (· = before) (confirmStartup selfSlot)
      (fun _ after => ConfirmEffect c.ReportsNoError selfSlot before after true)
      (fun after => ConfirmEffect c.ReportsNoError selfSlot before after false) := by
  have hdecision : toConfirm before selfSlot = toConfirm before selfSlot := rfl
  conv at hdecision => rhs; unfold toConfirm
  unfold confirmStartup
  refine Triple.read_at ?_
  cases hread : metadataRead before with
  | none =>
      rw [hread] at hdecision
      exact Triple.pure_at (.needless hdecision)
  | some m =>
      have hsound := metadataRead_sound hread
      rw [hread] at hdecision
      dsimp only at hdecision ⊢
      refine Triple.ite (fun hneedless => ?_) fun hneeded => ?_
      · rw [if_pos hneedless] at hdecision
        exact Triple.pure_at (.needless hdecision)
      · rw [if_neg hneeded] at hdecision
        refine Triple.bind ((metadataWrite_triple _ _ (hcalls _ _) (hcalls _ _)).conseq
          (fun _ h => h) (fun _ _ h => h) fun after h => ConfirmEffect.cut hdecision h)
          fun written => Triple.pure ?_
        rintro after ⟨hstopped, hok, hquiet⟩
        exact .written hdecision hstopped
          fun h => (hok (hquiet h (confirmRecord_sound hsound selfSlot))).2

end Effects

end OtaBoot
