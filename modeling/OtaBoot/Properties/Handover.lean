import OtaBoot.Passes

/-!
# Requests for an update

What it takes for a boot to listen for thirty seconds. The potential of a device
is what was paid for and not yet used: trigger bytes that wait or were counted,
and a request that is pending.
-/

namespace OtaBoot

open Storage App
open Driven (Triple Within)

namespace Device

/-- The boot finds a request. -/
def opensLong (d : Device) : DeviceEvent → Bool
  | .boot _ _ =>
      match d.board.mode with
      | .reset => d.pending
      | _ => false
  | _ => false

/-- The word is made a request by other means than the application. -/
def grants (_ : Device) : DeviceEvent → Bool
  | .powerUp word => word = bootRequestMagic
  | .debugger => true
  | _ => false

/-- What the running application has to its credit. -/
def counted (d : Device) : Nat :=
  match d.board.mode with
  | .app _ => d.loop.streak + d.hw.waiting
  | _ => 0

/-- What was paid for and not used. -/
def credit (d : Device) : Nat := (if d.pending then otaConfirmPolls else 0) + d.counted

theorem credit_reset (flash : Flash) (hw : Hardware) (loop : Loop) :
    credit ⟨⟨flash, .reset⟩, hw, loop⟩ =
      if hw.request = bootRequestMagic then otaConfirmPolls else 0 := by
  simp [credit, counted, pending]

theorem credit_app {d : Device} {slot : Slot} (hmode : d.board.mode = .app slot) :
    d.credit = (if d.hw.request = bootRequestMagic then otaConfirmPolls else 0) +
      (d.loop.streak + d.hw.waiting) := by
  simp [credit, counted, pending, hmode]

/-- An application that is started has nothing to its credit. -/
theorem counted_follow (d : Device) (board : Board) : (d.follow board).counted = 0 := by
  unfold follow counted
  cases hmode : board.mode with
  | reset | update => simp only [hmode]
  | app slot =>
      simp only [hmode]
      rfl

@[simp] theorem pending_follow (d : Device) (board : Board) :
    (d.follow board).pending = d.pending := by
  unfold follow
  split <;> rfl

@[simp] theorem triggers_follow (d : Device) (board : Board) :
    (d.follow board).hw.triggers = d.hw.triggers := by
  unfold follow
  split <;> rfl

theorem counted_poll {d : Device} {e : Event}
    (hevent : (∃ nowMs, e = .poll nowMs) ∨ ∃ byte faults, e = .byte byte faults) :
    Device.counted { d with board := d.board.step e } ≤ d.counted := by
  unfold counted
  cases hafter : (d.board.step e).mode with
  | reset | update => exact Nat.zero_le _
  | app slot => exact Nat.le_of_eq (by rw [Board.app_of_poll hevent hafter])

theorem aside_triggers {allowed : App.Move → Prop} (count : Nat) :
    Aside allowed fun hw => count ≤ hw.triggers where
  move := by
    intro hw m _ h
    cases m with
    | arrives byte =>
        obtain ⟨rdr, ore, heq⟩ := hw.arrives_eq byte
        rw [Hardware.move, heq, Hardware.triggers, List.count_append]
        exact Nat.le_trans h (Nat.le_add_right _ _)
    | shifts | gates | disables => exact h
  odr _ _ h := h
  tx _ _ h := h
  ore _ h := h
  rdr _ h := h

/-- The confirmation and the refresh cost nothing. -/
theorem credit_finishPass {d : Device} {slot : Slot} (hmode : d.board.mode = .app slot)
    (work : UInt32) (faults : List Fault) :
    (d.finishPass slot work faults).credit ≤ d.credit ∧
      (d.finishPass slot work faults).hw.triggers = d.hw.triggers := by
  unfold finishPass
  split
  · rcases (confirmStartup slot).run ⟨d.board.flash, faults, []⟩ with ⟨_ | _, w⟩
    · refine ⟨Nat.le_of_eq ?_, rfl⟩
      simp only [credit, counted, hmode]
      rfl
    · exact ⟨Nat.add_le_add_left (Nat.zero_le _) _, rfl⟩
  · exact ⟨Nat.le_of_eq rfl, rfl⟩

/-- A pass uses what was paid for, and no more. -/
theorem credit_pass (d : Device) (schedule : List (Turn App.Move)) (faults : List Fault) :
    (d.step (.pass schedule faults)).credit + d.hw.triggers ≤
      d.credit + (d.step (.pass schedule faults)).hw.triggers := by
  cases hmode : d.board.mode with
  | reset | update => simp only [step, hmode, Nat.le_refl]
  | app slot =>
      have hany : Within (fun _ => True) schedule := fun _ _ => trivial
      have hbegin : Paid d.counted d.hw.triggers d.loop.streak d.hw := by
        unfold counted
        rw [hmode]
        exact .start _ _
      have hpass := triple_appPass d.loop d.hw.request d.hw ⟨hbegin, rfl⟩ schedule hany
      have hmore := (aside_triggers d.hw.triggers).keeps_appPass (fun _ h => h) d.loop d.hw
        (Nat.le_refl _) schedule hany
      simp only [step, hmode]
      rcases hrun : (appPass d.loop).run d.hw schedule with ⟨hw, _ | ⟨⟨loop, _ | work⟩, rest⟩⟩ <;>
        rw [hrun] at hpass hmore <;> dsimp only
      · rw [credit_reset]
        change d.hw.triggers ≤ hw.triggers at hmore
        rcases hpass with hword | hpaid
        · rw [hword]
          unfold credit pending
          simp only [decide_eq_true_eq]
          omega
        · unfold Paid at hpaid
          unfold credit
          split <;> omega
      · obtain ⟨⟨hpaid, -⟩, -⟩ := hpass
        unfold Paid at hpaid
        rw [credit_reset]
        unfold credit
        split <;> omega
      · obtain ⟨⟨hpaid, hword⟩, -⟩ := hpass
        obtain ⟨hcredit, htriggers⟩ := credit_finishPass (d := ⟨d.board, hw, loop⟩) hmode work faults
        rw [htriggers]
        refine Nat.le_trans (Nat.add_le_add_right hcredit _) ?_
        rw [credit_app (d := ⟨d.board, hw, loop⟩) hmode, hword]
        unfold Paid at hpaid
        unfold credit pending
        simp only [decide_eq_true_eq] at hpaid ⊢
        omega

/-- A boot that listens long uses up a request, and only the line, the debugger
and a lucky power-up pay for anything. -/
theorem credit_step (d : Device) (e : DeviceEvent) :
    (if d.opensLong e then otaConfirmPolls else 0) + (d.step e).credit + d.hw.triggers ≤
      d.credit + (d.step e).hw.triggers + if d.grants e then otaConfirmPolls else 0 := by
  cases e with
  | boot start faults =>
      cases hmode : d.board.mode with
      | update | app => simp [step, opensLong, grants, hmode]
      | reset =>
          simp only [step, opensLong, grants, hmode, triggers_follow]
          unfold credit
          rw [counted_follow, pending_follow]
          unfold clearRequest
          cases hpending : d.pending with
          | true =>
              have hcleared : Device.pending { d with hw := { d.hw with request := 0 } } = false :=
                rfl
              simp only [if_true, hcleared]
              change _ + 0 + d.hw.triggers ≤ _ + _ + d.hw.triggers + _
              simp
          | false => simp [hpending]
  | poll nowMs =>
      simp only [opensLong, grants, Bool.false_eq_true, if_false, Nat.zero_add, Nat.add_zero]
      exact Nat.add_le_add_right (Nat.add_le_add_left (counted_poll (.inl ⟨_, rfl⟩)) _) _
  | byte byte faults =>
      simp only [opensLong, grants, Bool.false_eq_true, if_false, Nat.zero_add, Nat.add_zero]
      exact Nat.add_le_add_right (Nat.add_le_add_left (counted_poll (.inr ⟨_, _, rfl⟩)) _) _
  | pollEnd =>
      simp only [opensLong, grants, Bool.false_eq_true, if_false, Nat.zero_add, Nat.add_zero]
      cases hmode : d.board.mode with
      | reset | app => simp only [step, hmode, Nat.le_refl]
      | update u =>
          simp only [step, hmode, triggers_follow, credit, counted_follow, pending_follow]
          omega
  | pass schedule faults =>
      have hpass := credit_pass d schedule faults
      simpa [opensLong, grants] using hpass
  | reset =>
      simp only [opensLong, grants, Bool.false_eq_true, if_false, Nat.zero_add, Nat.add_zero]
      exact Nat.add_le_add_right (Nat.add_le_add_left (Nat.zero_le _) _) _
  | powerUp word =>
      simp only [step, opensLong, grants, Board.step, credit_reset, Bool.false_eq_true, if_false,
        Nat.zero_add, decide_eq_true_eq]
      change _ + d.hw.triggers ≤ d.credit + d.hw.triggers + _
      omega
  | debugger =>
      simp only [step, opensLong, grants, Board.step, credit_reset, Bool.false_eq_true, if_false,
        if_true, Nat.zero_add]
      change _ + d.hw.triggers ≤ d.credit + d.hw.triggers + _
      omega

/-- However the device is used, each boot that listens for thirty seconds has cost
four trigger bytes that came in while an application was running, or one request
by the debugger, or one power-up that happens to leave the magic word. -/
theorem long_windows_paid (d : Device) (events : List DeviceEvent) :
    otaConfirmPolls * Transition.count step opensLong d events + (d.run events).credit +
        d.hw.triggers ≤
      d.credit + (d.run events).hw.triggers +
        otaConfirmPolls * Transition.count step grants d events := by
  induction events generalizing d with
  | nil => simp [run, Transition.count]
  | cons e events ih =>
      have hstep := credit_step d e
      have hrest := ih (d.step e)
      simp only [run, Transition.run_cons, Transition.count, Nat.mul_add, mul_ite, Nat.mul_one,
        Nat.mul_zero] at hrest ⊢
      omega

end Device

end OtaBoot
