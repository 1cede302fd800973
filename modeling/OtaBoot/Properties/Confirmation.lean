import OtaBoot.Passes
import OtaBoot.Histories

/-!
# Confirmation comes before a request

An application confirms itself on its third pass, and needs four clean polls to
ask for an update. What it hands over is a board whose record says so: the slot
it ran in is valid and no failed boot is on count.
-/

namespace OtaBoot

open Storage App
open Driven (Triple Within)

/-- The record has nothing against the slot. -/
def Settled (flash : Flash) (slot : Slot) : Prop :=
  ∀ m, metadataRead flash = some m → (m.slot slot).state = stateValid ∧ m.bootFailCount = 0

theorem settled_of_toConfirm {flash : Flash} {slot : Slot} (hnone : toConfirm flash slot = none) :
    Settled flash slot := by
  intro m hread
  unfold toConfirm at hnone
  rw [hread] at hnone
  dsimp only at hnone
  split at hnone
  next hsettled => exact hsettled
  next => cases hnone

/-- A confirmation that reports no error settles the slot. -/
theorem settled_of_confirm {before after : Flash} {slot : Slot} (hcounter : CounterOk before)
    (h : ConfirmEffect True slot before after true) : Settled after slot := by
  cases h with
  | needless hnone => exact settled_of_toConfirm hnone
  | written hsome hstopped hquiet =>
      intro m hread
      obtain ⟨hold, -⟩ := toConfirm_eq_some hsome
      have hsound := confirmRecord_sound (metadataRead_sound hold) slot
      rw [hquiet trivial, metadataRead_completeImage hcounter hsound] at hread
      cases hread
      rw [writtenRecord, stamped_slot, stamped_bootFailCount]
      cases slot <;> exact ⟨rfl, rfl⟩

namespace DeviceEvent

def faults : DeviceEvent → List Fault
  | boot _ faults | byte _ faults | pass _ faults => faults
  | _ => []

/-- Nothing but power loss disturbs the flash. -/
def Quiet (e : DeviceEvent) : Prop := ∀ fault ∈ e.faults, fault.Quiet

end DeviceEvent

namespace Device

/-- The pass ends by handing over. -/
def handsOver (d : Device) : DeviceEvent → Bool
  | .pass schedule _ =>
      match d.board.mode, ((appPass d.loop).run d.hw schedule).2 with
      | .app _, some ((_, .handsOver), _) => true
      | _, _ => false
  | _ => false

/-- While an application runs it has confirmed itself, with this outcome, or it is
too young to hand over. -/
def Seasoned (outcome : Flash → Slot → Prop) (d : Device) : Prop :=
  ∀ slot, d.board.mode = .app slot →
    d.loop.confirmed = true ∧ outcome d.board.flash slot ∨
      d.loop.confirmed = false ∧ d.loop.cycle.toNat < 3 ∧ d.loop.streak ≤ d.loop.cycle.toNat

variable {outcome : Flash → Slot → Prop}

theorem seasoned_follow (d : Device) (board : Board) : (d.follow board).Seasoned outcome := by
  intro slot hmode
  rw [follow_board] at hmode
  have hstart : (d.follow board).loop = .start := by
    unfold follow
    rw [hmode]
  rw [hstart]
  exact .inr ⟨rfl, by decide, Nat.zero_le _⟩

/-- What the confirmation leaves when it gets to its end. -/
def Confirms (outcome : Flash → Slot → Prop) (d : Device) (e : DeviceEvent) : Prop :=
  ∀ schedule faults slot w, e = .pass schedule faults →
    (confirmStartup slot).run ⟨d.board.flash, faults, []⟩ = (.done (), w) → outcome w.state slot

theorem seasoned_finishPass {d : Device} {slot : Slot} {work : UInt32} {faults : List Fault}
    (hmode : d.board.mode = .app slot)
    (hconfirm : ∀ w, (confirmStartup slot).run ⟨d.board.flash, faults, []⟩ = (.done (), w) →
      outcome w.state slot)
    (hpass : d.loop.confirmed = true ∧ outcome d.board.flash slot ∨
      d.loop.confirmed = false ∧ d.loop.cycle.toNat ≤ 3 ∧ d.loop.streak ≤ d.loop.cycle.toNat) :
    (d.finishPass slot work faults).Seasoned outcome := by
  unfold finishPass
  split
  next hdue =>
    rcases hrun : (confirmStartup slot).run ⟨d.board.flash, faults, []⟩ with ⟨⟨⟩ | _, w⟩
    · intro slot' hmode'
      cases hmode'
      exact .inl ⟨rfl, hconfirm w hrun⟩
    · intro slot' hmode'
      cases hmode'
  next hdue =>
    intro slot' hmode'
    cases hmode.symm.trans hmode'
    rcases hpass with hdone | ⟨hnot, hcycle, hstreak⟩
    · exact .inl hdone
    · have hyoung : d.loop.cycle.toNat < 3 := by
        by_contra hold
        have hthree : cyclesBeforeConfirmation ≤ d.loop.cycle := by
          rw [UInt32.le_iff_toNat_le]
          exact Nat.not_lt.mp hold
        exact hdue (by simp [Loop.confirms, hnot, hthree])
      exact .inr ⟨hnot, hyoung, hstreak⟩

/-- What the pass makes of the loop, if it gets to its end. -/
theorem advanced_of_run {d : Device} {schedule rest : List (Turn App.Move)} {hw : Hardware}
    {out : Loop × PassEnd}
    (hrun : (appPass d.loop).run d.hw schedule = (hw, some (out, rest))) : Advanced d.loop out := by
  have hany : Within (fun _ : App.Move => True) schedule := fun _ _ => trivial
  have hpass := triple_advanced d.loop d.hw trivial schedule hany
  rw [hrun] at hpass
  exact hpass.1

theorem seasoned_step {d : Device} {e : DeviceEvent} (h : d.Seasoned outcome)
    (hconfirm : d.Confirms outcome e) : (d.step e).Seasoned outcome := by
  cases e with
  | boot start faults =>
      cases hmode : d.board.mode with
      | reset =>
          simp only [step, hmode]
          exact seasoned_follow _ _
      | update | app =>
          simp only [step, hmode]
          exact h
  | poll nowMs =>
      intro slot hmode
      have hbefore := Board.app_of_poll (.inl ⟨nowMs, rfl⟩) hmode
      have hsame : d.board.step (.poll nowMs) = d.board := by simp only [Board.step, hbefore]
      rw [step, hsame]
      exact h slot hbefore
  | byte byte faults =>
      intro slot hmode
      have hbefore := Board.app_of_poll (.inr ⟨byte, faults, rfl⟩) hmode
      have hsame : d.board.step (.byte byte faults) = d.board := by
        simp only [Board.step, hbefore]
      rw [step, hsame]
      exact h slot hbefore
  | pollEnd =>
      cases hmode : d.board.mode with
      | update u =>
          simp only [step, hmode]
          exact seasoned_follow _ _
      | reset | app =>
          simp only [step, hmode]
          exact h
  | pass schedule faults =>
      cases hmode : d.board.mode with
      | reset | update =>
          simp only [step, hmode]
          exact h
      | app slot =>
          simp only [step, hmode]
          rcases hrun : (appPass d.loop).run d.hw schedule with
            ⟨hw, _ | ⟨⟨loop, _ | work⟩, rest⟩⟩ <;> dsimp only
          · intro slot' hmode'
            cases hmode'
          · intro slot' hmode'
            cases hmode'
          · obtain ⟨hcycle, hconfirmed, hstreak⟩ := advanced_of_run hrun
            refine seasoned_finishPass hmode (fun w => hconfirm schedule faults slot w rfl) ?_
            dsimp only at hcycle hconfirmed hstreak ⊢
            rcases h slot hmode with ⟨hdone, houtcome⟩ | ⟨hnot, hyoung, hfew⟩
            · exact .inl ⟨hconfirmed.trans hdone, houtcome⟩
            · have hnext : loop.cycle.toNat = d.loop.cycle.toNat + 1 := by
                rw [hcycle, UInt32.toNat_add, UInt32.toNat_one, Nat.mod_eq_of_lt (by omega)]
              exact .inr ⟨hconfirmed.trans hnot, by omega, by omega⟩
  | reset | powerUp | debugger =>
      intro slot hmode
      cases hmode

/-- A pass that hands over is one of an application that has confirmed itself. -/
theorem Seasoned.handsOver {d : Device} {e : DeviceEvent} (h : d.Seasoned outcome)
    (hhands : d.handsOver e = true) :
    ∃ slot, d.board.mode = .app slot ∧ d.loop.confirmed = true ∧ outcome d.board.flash slot := by
  cases e with
  | pass schedule faults =>
      rw [Device.handsOver] at hhands
      split at hhands
      next slot loop rest hmode hout =>
        have hpass := advanced_of_run (Prod.ext rfl hout)
        refine ⟨slot, hmode, ?_⟩
        rcases h slot hmode with hdone | ⟨-, hyoung, hfew⟩
        · exact hdone
        · have hfour : 4 ≤ d.loop.streak + 1 := hpass.2.2
          omega
      next => cases hhands
  | boot | poll | byte | pollEnd | reset | powerUp | debugger => cases hhands

theorem seasoned_of_not_app {d : Device} (h : ∀ slot, d.board.mode ≠ .app slot) :
    d.Seasoned outcome :=
  fun slot hmode => absurd hmode (h slot)

theorem confirms_settled {d : Device} {e : DeviceEvent} (hcounter : CounterOk d.board.flash)
    (hquiet : e.Quiet) : d.Confirms Settled e := by
  rintro schedule faults slot w rfl hrun
  have htriple := confirmStartup_triple (c := Climate.quiet) d.board.flash (fun _ _ => trivial) slot
  have hreports : (Climate.quiet : Climate Flash FlashCall).ReportsNoError = True :=
    eq_true fun _ h => h
  rw [hreports] at htriple
  have hout := htriple.run_from faults hquiet
  rw [hrun] at hout
  exact settled_of_confirm hcounter hout.1

/-- A run shorter than the counter's range never exhausts it. -/
theorem counterOk_guarded {d : Device} {events : List DeviceEvent} (hb : d.board.Bounded)
    (hcounter : counterAt d.board.flash + events.length < 2 ^ 32 - 1) :
    Transition.Guarded step (fun d _ => CounterOk d.board.flash) d events := by
  induction events generalizing d with
  | nil => trivial
  | cons e events ih =>
      rw [List.length_cons] at hcounter
      have hstep : counterAt (d.step e).board.flash ≤ counterAt d.board.flash + 1 ∧
          (d.step e).board.Bounded := by
        rw [step_board]
        rcases d.boardEvents_cases e with hnone | ⟨e', hone⟩
        · rw [hnone]
          exact ⟨Nat.le_succ _, hb⟩
        · rw [hone]
          exact ⟨counterAt_step hb e', Board.bounded_step hb e'⟩
      exact ⟨counterOk_iff.mpr (by omega), ih hstep.2 (by omega)⟩

/-- In every run of the device an application has confirmed itself before it hands
over. Where no flash operation reports an error and the write counter does not run
out, the record then names its slot valid and counts no failed boot, so that the
request costs it no attempt. -/
theorem handover_after_confirmation (d : Device) (hstart : ∀ slot, d.board.mode ≠ .app slot)
    (events : List DeviceEvent) :
    Transition.Guarded step (fun d e => d.handsOver e = true → d.loop.confirmed = true) d events ∧
      (Transition.Guarded step (fun d e => CounterOk d.board.flash ∧ e.Quiet) d events →
        Transition.Guarded step (fun d e => d.handsOver e = true →
          ∃ slot, d.board.mode = .app slot ∧ Settled d.board.flash slot) d events) := by
  constructor
  · refine Transition.Guarded.of_invariant (Seasoned fun _ _ => True) ?_ ?_
      (seasoned_of_not_app hstart) events
    · exact fun d e h => seasoned_step h fun _ _ _ _ _ _ => trivial
    · intro d e h hhands
      obtain ⟨-, -, hconfirmed, -⟩ := h.handsOver hhands
      exact hconfirmed
  · refine Transition.Guarded.of_guarded (Seasoned Settled) ?_ ?_ (seasoned_of_not_app hstart)
    · exact fun d e h hguard => seasoned_step h (confirms_settled hguard.1 hguard.2)
    · rintro d e h - hhands
      obtain ⟨slot, hmode, -, hsettled⟩ := h.handsOver hhands
      exact ⟨slot, hmode, hsettled⟩

/-- A boot that ends its listen window, and four passes on a held line. -/
def bootAndHold : List DeviceEvent :=
  [.boot 0 [], .poll 3000, .pollEnd] ++ List.replicate 4 (.pass (heldLine 150) [])

/-- A board with two confirmed images. -/
def prepared : Device :=
  { awake with board := ⟨stocked vectorsOnly vectorsOnly bothConfirmed, .reset⟩ }

theorem handover_after_confirmation_prepared :
    Transition.Guarded step (fun d e => d.handsOver e = true → d.loop.confirmed = true) prepared
        bootAndHold ∧
      Transition.Guarded step (fun d e => d.handsOver e = true →
        ∃ slot, d.board.mode = .app slot ∧ Settled d.board.flash slot) prepared bootAndHold := by
  have hcases := handover_after_confirmation prepared (fun _ => nofun) bootAndHold
  obtain ⟨m, -, -, hone⟩ : ∃ m, metadataRead (stocked vectorsOnly vectorsOnly bothConfirmed) =
      some m ∧ m.ledger = bothConfirmed.ledger ∧
      counterAt (stocked vectorsOnly vectorsOnly bothConfirmed) = 1 :=
    stocked_read (by decide) (by decide) bothConfirmed_sound
  have hcounter : counterAt prepared.board.flash + bootAndHold.length < 2 ^ 32 - 1 := by
    rw [show counterAt prepared.board.flash = 1 from hone]
    decide
  have hquiet : ∀ e ∈ bootAndHold, e.Quiet := by
    intro e he
    simp only [bootAndHold, List.cons_append, List.nil_append, List.mem_cons, List.mem_replicate]
      at he
    rcases he with rfl | rfl | rfl | ⟨-, rfl⟩ <;> exact fun fault h => absurd h List.not_mem_nil
  exact ⟨hcases.1, hcases.2 ((counterOk_guarded (Board.bounded_reset _) hcounter).and
    (.of_forall hquiet _))⟩

/-! ## The third pass -/

/-- The pass ends, and the application goes on. -/
def goesOn (d : Device) : DeviceEvent → Bool
  | .pass schedule _ =>
      match ((appPass d.loop).run d.hw schedule).2 with
      | some ((_, .goesOn _), _) => true
      | _ => false
  | _ => false

/-- Undisturbed passes after all of which the application goes on. -/
def Goes (d : Device) (schedules : List (List (Turn App.Move))) : Prop :=
  Transition.Guarded step (fun d e => d.goesOn e = true) d (schedules.map (.pass · []))

theorem run_of_goesOn {d : Device} {schedule : List (Turn App.Move)} {faults : List Fault}
    (h : d.goesOn (.pass schedule faults) = true) :
    ∃ hw loop work rest,
      (appPass d.loop).run d.hw schedule = (hw, some ((loop, .goesOn work), rest)) := by
  unfold goesOn at h
  rcases hrun : (appPass d.loop).run d.hw schedule with ⟨hw, _ | ⟨⟨loop, _ | work⟩, rest⟩⟩
  · simp [hrun] at h
  · simp [hrun] at h
  · exact ⟨hw, loop, work, rest, rfl⟩

/-- An application after so many passes, where its confirmation makes `after` of `before`. -/
structure Aged (before after : Flash) (slot : Slot) (passes : Nat) (d : Device) : Prop where
  board : d.board = ⟨if passes < 3 then before else after, .app slot⟩
  confirmed : d.loop.confirmed = decide (3 ≤ passes)
  cycle : passes < 3 → d.loop.cycle.toNat = passes

section Aged

variable {before after : Flash} {slot : Slot} {passes : Nat} {d : Device}

theorem Aged.confirms (h : Aged before after slot passes d) {schedule rest : List (Turn App.Move)}
    {hw : Hardware} {out : Loop × PassEnd}
    (hrun : (appPass d.loop).run d.hw schedule = (hw, some (out, rest))) :
    out.1.confirms = decide (passes = 2) := by
  obtain ⟨hcycle, hconfirmed, -⟩ := advanced_of_run hrun
  rw [h.confirmed] at hconfirmed
  rcases Nat.lt_or_ge passes 3 with hyoung | hgrown
  · have hthree : cyclesBeforeConfirmation ≤ out.1.cycle ↔ 3 ≤ passes + 1 := by
      rw [UInt32.le_iff_toNat_le, hcycle, UInt32.toNat_add, h.cycle hyoung, UInt32.toNat_one,
        Nat.mod_eq_of_lt (by omega)]
      exact Iff.rfl
    have hdue : 3 ≤ passes + 1 ↔ passes = 2 := by omega
    simp [Loop.confirms, hconfirmed, hthree, hdue, hyoung]
  · have hlate : passes ≠ 2 := by omega
    simp [Loop.confirms, hconfirmed, hgrown, hlate]

theorem Aged.pass {w : World Flash FlashCall}
    (hwrite : (confirmStartup slot).run ⟨before, [], []⟩ = (.done (), w))
    (h : Aged before w.state slot passes d) {schedule : List (Turn App.Move)}
    (hpass : d.goesOn (.pass schedule []) = true) :
    Aged before w.state slot (passes + 1) (d.step (.pass schedule [])) := by
  obtain ⟨hw, loop, work, rest, hrun⟩ := run_of_goesOn hpass
  obtain ⟨hcycle, hconfirmed, -⟩ := advanced_of_run hrun
  have hdue : loop.confirms = decide (passes = 2) := h.confirms hrun
  have hstep : d.step (.pass schedule []) = finishPass ⟨d.board, hw, loop⟩ slot work [] := by
    simp only [step, h.board, hrun]
  rw [hstep, finishPass, hdue, h.board]
  by_cases hthird : passes = 2
  · subst hthird
    simp only [decide_true, if_true, Nat.lt_add_one, hwrite]
    exact ⟨rfl, rfl, fun h => absurd h (Nat.lt_irrefl 3)⟩
  · have hsame : passes + 1 < 3 ↔ passes < 3 := by omega
    have hlater : 3 ≤ passes ↔ 3 ≤ passes + 1 := by omega
    simp only [decide_eq_true_eq, if_neg hthird]
    refine ⟨?_, ?_, fun hyoung => ?_⟩
    · simp only [hsame]
    · rw [hconfirmed, h.confirmed, decide_eq_decide]
      exact hlater
    · rw [hcycle, UInt32.toNat_add, h.cycle (hsame.mp hyoung), UInt32.toNat_one,
        Nat.mod_eq_of_lt (by omega)]

theorem Aged.run {w : World Flash FlashCall}
    (hwrite : (confirmStartup slot).run ⟨before, [], []⟩ = (.done (), w))
    {schedules : List (List (Turn App.Move))} (h : Aged before w.state slot passes d)
    (hgoes : d.Goes schedules) :
    Aged before w.state slot (passes + schedules.length)
      (d.run (schedules.map (.pass · []))) := by
  induction schedules generalizing passes d with
  | nil => exact h
  | cons schedule schedules ih =>
      have hnext := ih (h.pass hwrite hgoes.1) hgoes.2
      rwa [Nat.add_assoc, Nat.add_comm 1] at hnext

end Aged

end Device

end OtaBoot
