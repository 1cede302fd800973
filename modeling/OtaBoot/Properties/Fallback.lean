import OtaBoot.Properties.Trials

/-!
# When the bootloader waits without end

`main` enters `update_mode(0)` when it finds nothing to run. It looks at the other
slot only to roll back, so that a confirmed image there goes unnoticed when the
active slot is found corrupt, empty or half received; and it does not run that
image either when the record of the rollback is not reported as written.
-/

namespace OtaBoot

open Storage

/-- A confirmed image that passes its checks. -/
def Runnable (flash : Flash) (m : Metadata) (s : Slot) : Prop :=
  (m.slot s).state = stateValid ∧ imageIsIntact flash m s = true

instance (flash : Flash) (m : Metadata) (s : Slot) : Decidable (Runnable flash m s) :=
  inferInstanceAs (Decidable (_ ∧ _))

/-- `main` waits without end, unless it loses power. -/
def Parks (flash : Flash) (otaRequest : Bool) (faults : List Fault) : Prop :=
  ((bootMain otaRequest).run ⟨flash, faults, []⟩).1 = .done (.updateMode 0 none)

section Park

variable {flash : Flash} {m : Metadata}

theorem parks_of_decision (otaRequest : Bool) (faults : List Fault)
    (hdecision : bootDecision flash = .park) : Parks flash otaRequest faults := by
  have hrun := (bootMain_triple (c := .harsh) flash (fun _ _ => trivial) otaRequest).run_from
    faults fun _ _ => trivial
  unfold Parks
  cases hx : (bootMain otaRequest).run ⟨flash, faults, []⟩ with
  | mk out w =>
      obtain ⟨after, rest, calls⟩ := w
      rw [hx] at hrun
      cases out with
      | cut =>
          obtain ⟨heffect, -⟩ := hrun
          cases heffect with
          | attemptCut h | rollbackCut h => exact absurd (hdecision.symm.trans h) nofun
      | done boot =>
          obtain ⟨heffect, -⟩ := hrun
          cases heffect with
          | parked => rfl
          | ran h | attempted h | rolledBack h | rollbackFailed h =>
              exact absurd (hdecision.symm.trans h) nofun

/-- The decision to wait, and a rollback that could not be recorded, make `main` wait. -/
theorem parks_iff (flash : Flash) (otaRequest : Bool) (faults : List Fault) :
    Parks flash otaRequest faults ↔ bootDecision flash = .park ∨
      ∃ m, FallsBack flash m ∧ (fate 7 faults = .failed ∨ fate 7 faults = .unreported) := by
  constructor
  · intro hparks
    have hlisten : listenMs otaRequest ≠ 0 := by cases otaRequest <;> decide
    have hrun := (bootMain_triple (c := .harsh) flash (fun _ _ => trivial) otaRequest).run_from
      faults fun _ _ => trivial
    unfold Parks at hparks
    cases hx : (bootMain otaRequest).run ⟨flash, faults, []⟩ with
    | mk out w =>
        obtain ⟨after, rest, calls⟩ := w
        rw [hx] at hrun hparks
        subst hparks
        obtain ⟨heffect, -⟩ := hrun
        generalize hboot : Boot.updateMode 0 none = boot at heffect
        cases heffect with
        | parked hdecision => exact .inl hdecision
        | ran | attempted =>
            simp only [Boot.updateMode.injEq] at hboot
            exact absurd hboot.1.symm hlisten
        | rolledBack => cases hboot
        | rollbackFailed hdecision =>
            have hm := fallsBack_of_decision hdecision
            have hout := ((hm.fares otaRequest).outcome faults []).2
            rw [writePath_zero, hx] at hout
            obtain ⟨hpower, hvalue⟩ := hout
            refine .inr ⟨_, hm, ?_⟩
            cases hfate : fate 7 faults with
            | done =>
                rw [if_pos hfate] at hvalue
                cases hvalue
            | unreported => exact .inr rfl
            | failed => exact .inl rfl
            | cut => exact absurd hfate hpower
  · rintro (hdecision | ⟨m, hm, hfailed⟩)
    · exact parks_of_decision otaRequest faults hdecision
    · have hrun := hm.fares otaRequest faults []
      unfold Parks
      rcases hfailed with hfate | hfate
      all_goals
        rw [hfate] at hrun
        obtain ⟨boot, w, hrun, rfl, -⟩ := hrun
        rw [writePath_zero] at hrun
        rw [hrun]

/-- What the decision to wait says of the record. -/
theorem bootDecision_park_iff (hread : metadataRead flash = some m) :
    bootDecision flash = .park ↔ ¬ Runnable flash m m.active ∧
      ((m.slot m.active).state = stateTesting →
        if m.bootFailCount ≥ maxBootFailures then
          (m.slot m.active.other).state = stateEmpty ∨ ¬ imageIsIntact flash m m.active.other
        else ¬ imageIsIntact flash m m.active) := by
  rw [bootDecision_of_read hread]
  by_cases hvalid : (m.slot m.active).state = stateValid
  · rw [if_pos hvalid]
    by_cases hintact : imageIsIntact flash m m.active = true
    · rw [if_pos hintact]
      exact iff_of_false nofun fun h => h.1 ⟨hvalid, hintact⟩
    · rw [if_neg hintact]
      refine iff_of_true rfl ⟨fun h => hintact h.2, fun htesting => ?_⟩
      exact absurd (hvalid.symm.trans htesting) (by decide)
  have hactive : ¬ Runnable flash m m.active := fun h => hvalid h.1
  rw [if_neg hvalid]
  by_cases htesting : (m.slot m.active).state = stateTesting
  · rw [if_pos htesting]
    by_cases hcount : m.bootFailCount ≥ maxBootFailures
    · simp only [if_pos hcount]
      by_cases hother : (m.slot m.active.other).state = stateEmpty ∨
          ¬ imageIsIntact flash m m.active.other
      · rw [if_pos hother]
        exact iff_of_true rfl ⟨hactive, fun _ => hother⟩
      · rw [if_neg hother]
        exact iff_of_false nofun fun h => hother (h.2 htesting)
    · simp only [if_neg hcount]
      by_cases hintact : imageIsIntact flash m m.active = true
      · rw [if_pos hintact]
        exact iff_of_false nofun fun h => h.2 htesting hintact
      · rw [if_neg hintact]
        exact iff_of_true rfl ⟨hactive, fun _ => hintact⟩
  · rw [if_neg htesting]
    exact iff_of_true rfl ⟨hactive, fun h => absurd h htesting⟩

/-- A slot on trial is not confirmed. -/
theorem not_runnable_of_testing {s : Slot} (h : (m.slot s).state = stateTesting) :
    ¬ Runnable flash m s := fun hrunnable => not_valid_of_testing h hrunnable.1

end Park

/-- `main` waits without end only with nothing to run, exactly if the other slot
is not runnable, or the active slot is, or the active slot is on trial and, with
attempts left, intact or, without, rolled back from by a write that no error is
reported of. -/
theorem parks_with_nothing_runnable_iff {flash : Flash} {m : Metadata}
    (hread : metadataRead flash = some m) (otaRequest : Bool) (faults : List Fault) :
    (Parks flash otaRequest faults → ∀ s, ¬ Runnable flash m s) ↔
    ¬ Runnable flash m m.active.other ∨ Runnable flash m m.active ∨
      (m.slot m.active).state = stateTesting ∧
        if m.bootFailCount ≥ maxBootFailures then fate 7 faults = .done ∨ fate 7 faults = .cut
        else imageIsIntact flash m m.active = true := by
  have hpark := bootDecision_park_iff hread
  rw [parks_iff]
  constructor
  · intro hproperty
    by_contra hfails
    simp only [not_or, not_not, not_and] at hfails
    obtain ⟨hother, hactive, htesting⟩ := hfails
    refine hproperty ?_ _ hother
    by_cases hstate : (m.slot m.active).state = stateTesting
    · have hreason := htesting hstate
      split at hreason
      next hcount =>
        -- the rollback is begun, and not reported as written
        have hm : FallsBack flash m :=
          ⟨hread, hstate, hcount, by rw [hother.1]; decide, hother.2⟩
        refine .inr ⟨m, hm, ?_⟩
        cases hfate : fate 7 faults with
        | done => exact absurd (.inl hfate) hreason
        | unreported => exact .inr rfl
        | failed => exact .inl rfl
        | cut => exact absurd (.inr hfate) hreason
      next hcount =>
        exact .inl (hpark.mpr ⟨hactive, fun _ => by rwa [if_neg hcount]⟩)
    · exact .inl (hpark.mpr ⟨hactive, fun h => absurd h hstate⟩)
  · intro hcondition hparks s hrunnable
    -- what made `main` wait, and that the active slot is not runnable
    have hwait : ¬ Runnable flash m m.active ∧
        ((m.slot m.active).state = stateTesting → Runnable flash m m.active.other →
          ¬ if m.bootFailCount ≥ maxBootFailures then fate 7 faults = .done ∨ fate 7 faults = .cut
            else imageIsIntact flash m m.active = true) := by
      rcases hparks with hdecision | ⟨m', hm', hfate⟩
      · obtain ⟨hactive, htesting⟩ := hpark.mp hdecision
        refine ⟨hactive, fun hstate hother => ?_⟩
        have hreason := htesting hstate
        split at hreason
        next hcount =>
          rcases hreason with hempty | hbad
          · rw [hother.1] at hempty
            exact absurd hempty (by decide : stateValid ≠ stateEmpty)
          · exact absurd hother.2 hbad
        next hcount => rwa [if_neg hcount]
      · obtain rfl : m = m' := Option.some.inj (hread.symm.trans hm'.read)
        refine ⟨not_runnable_of_testing hm'.testing, fun _ _ => ?_⟩
        rw [if_pos hm'.exhausted]
        rcases hfate with hfate | hfate <;> rw [hfate] <;> decide
    obtain ⟨hactive, htesting⟩ := hwait
    by_cases hs : s = m.active
    · exact hactive (hs ▸ hrunnable)
    · obtain rfl := Slot.eq_other_iff.mpr hs
      rcases hcondition with hother | hactive' | ⟨hstate, hreason⟩
      · exact hother hrunnable
      · exact hactive hactive'
      · exact htesting hstate hrunnable hreason

/-! ## Erased slots -/

/-- An erased slot holds no image. -/
theorem not_intact_of_erased {flash : Flash} {m : Metadata} {s : Slot}
    (h : Memory.AgreeOn s.addr.toNat 8 flash fun _ => erasedByte) :
    imageIsIntact flash m s ≠ true := by
  have herased : slotLooksBootable flash s.addr = false := by
    rw [slotLooksBootable_congr h]
    cases s <;> decide
  intro hintact
  rw [looksBootable_of_intact hintact] at herased
  cases herased

/-- With the active slot broken, `main` waits, whatever the other slot holds. -/
theorem parks_bothConfirmed {flash : Flash} {m : Metadata} (hread : metadataRead flash = some m)
    (hm : m.ledger = bothConfirmed.ledger) (hbroken : imageIsIntact flash m .b ≠ true) :
    Parks flash false [] := by
  have hactive : m.active = .b := congrArg Ledger.active hm
  have hstate : (m.slot .b).state = stateValid := congrArg (fun l => (l.slot .b).state) hm
  refine parks_of_decision false [] ((bootDecision_park_iff hread).mpr ?_)
  rw [hactive]
  refine ⟨fun h => hbroken h.2, fun htesting => ?_⟩
  exact absurd (hstate.symm.trans htesting) (by decide)

/-- With both images gone there is nothing to run. -/
theorem parks_with_nothing_runnable_erased :
    ∃ m, metadataRead (stocked [] [] bothConfirmed) = some m ∧
      Parks (stocked [] [] bothConfirmed) false [] ∧
      ∀ s, ¬ Runnable (stocked [] [] bothConfirmed) m s := by
  obtain ⟨m, hread, hm, -⟩ :=
    stocked_read (by decide : [].length ≤ _) (by decide : [].length ≤ _) bothConfirmed_sound
  have hbroken (s : Slot) : imageIsIntact (stocked [] [] bothConfirmed) m s ≠ true := by
    refine not_intact_of_erased (((stocked_agreeOn s).mono (Nat.le_refl _) (by omega)).trans ?_)
    rw [twoImages, Memory.store_nil, Memory.store_nil]
    exact .refl _ _ _
  have hparks := parks_bothConfirmed hread hm (hbroken .b)
  exact ⟨m, hread, hparks, (parks_with_nothing_runnable_iff hread false []).mpr
    (.inl fun h => hbroken _ h.2) hparks⟩

/-- The image in slot B is gone, the one in slot A is not looked at. -/
theorem bothConfirmed_parks :
    ∃ m, metadataRead (stocked vectorsOnly [] bothConfirmed) = some m ∧
      Parks (stocked vectorsOnly [] bothConfirmed) false [] ∧
      Runnable (stocked vectorsOnly [] bothConfirmed) m .a := by
  obtain ⟨m, hread, hm, -⟩ := stocked_read (by decide : vectorsOnly.length ≤ _)
    (by decide : [].length ≤ _) bothConfirmed_sound
  set flash := stocked vectorsOnly [] bothConfirmed with hflash
  have hcontent : flash.read Slot.a.addr.toNat vectorsOnly.length = vectorsOnly :=
    stocked_slotA (by decide)
  have himage : m.ledger.Describes flash .a vectorsOnly :=
    confirmedInfo_describes (congrArg (Ledger.slot · .a) hm) hcontent
  have hbroken : imageIsIntact flash m .b ≠ true := by
    refine not_intact_of_erased (((stocked_agreeOn .b).mono (Nat.le_refl _) (by decide)).trans ?_)
    rw [twoImages, Memory.store_nil]
    exact Memory.store_agreeOn _ _ _ (.inr (by decide))
  exact ⟨m, hread, parks_bothConfirmed hread hm hbroken,
    congrArg (fun l => (l.slot .a).state) hm, himage.intact⟩

end OtaBoot
