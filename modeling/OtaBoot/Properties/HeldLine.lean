import OtaBoot.Passes
import OtaBoot.Decision

/-!
# A line that is held down

The host asks for an update by sending the trigger byte over and over. Most of
the bytes are lost, and it does not matter: where each poll finds one, and nothing
but trigger bytes comes in, the fourth poll in a row hands over.
-/

namespace OtaBoot

open Storage App
open Driven (Triple Within)

namespace App

/-- Nothing but trigger bytes comes in. -/
def TriggersOnly (m : Move) : Prop := ∀ byte, m = .arrives byte → byte = otaTriggerByte

/-- A byte that waits is a trigger byte. -/
def OnlyTriggers (hw : Hardware) : Prop := ∀ byte, hw.rdr = some byte → byte = otaTriggerByte

/-- What comes in is taken or lost. -/
theorem Hardware.arrives_rdr (hw : Hardware) (byte : UInt8) :
    (hw.arrives byte).rdr = hw.rdr ∨ hw.rdr = none ∧ (hw.arrives byte).rdr = some byte := by
  unfold Hardware.arrives
  dsimp only
  split
  · exact .inl rfl
  · split
    · exact .inl rfl
    next hempty => exact .inr ⟨hempty, rfl⟩

theorem OnlyTriggers.move {hw : Hardware} (h : OnlyTriggers hw) {m : Move} (hm : TriggersOnly m) :
    OnlyTriggers (hw.move m) := by
  cases m with
  | arrives byte =>
      intro byte' hbyte'
      rcases hw.arrives_rdr byte with hsame | ⟨-, hnew⟩
      · exact h byte' (hsame.symm.trans hbyte')
      · cases hnew.symm.trans hbyte'
        exact hm byte rfl
  | shifts | gates | disables => exact h

/-- A byte that waits goes on waiting. -/
theorem Hardware.waits_move {hw : Hardware} (h : hw.rdr = some otaTriggerByte) (m : Move) :
    (hw.move m).rdr = some otaTriggerByte := by
  cases m with
  | arrives byte =>
      rcases hw.arrives_rdr byte with hsame | ⟨hempty, -⟩
      · exact hsame.trans h
      · rw [hempty] at h
        cases h
  | shifts | gates | disables => exact h

theorem usart1Isr_rxne (hw : Hardware) : (hw.usart1Isr &&& isrRxne ≠ 0) ↔ hw.rdr.isSome = true := by
  unfold Hardware.usart1Isr
  cases hw.rdr.isSome <;> cases hw.ore <;> decide

/-- The second half of `uart_getc`, once the flag was found set. -/
theorem triple_readRdr :
    Triple TriggersOnly (fun hw => hw.rdr = some otaTriggerByte)
      (Driven.access Hardware.move Hardware.readRdr)
      (fun rdr hw => rdrByte rdr = otaTriggerByte ∧ OnlyTriggers hw) (fun _ => True) := by
  refine .access (fun hw m _ h => hw.waits_move h m) (fun _ _ => trivial) fun hw h => ⟨?_, nofun⟩
  rw [Hardware.readRdr, h]
  exact rdrByte_toUInt32 _

/-- What is read is a trigger byte, if anything is read. -/
theorem triple_getc_triggers :
    Triple TriggersOnly OnlyTriggers uartGetc
      (fun byte? hw => (∀ byte, byte? = some byte → byte = otaTriggerByte) ∧ OnlyTriggers hw)
      (fun _ => True) := by
  have hmove : ∀ hw m, TriggersOnly m → OnlyTriggers hw → OnlyTriggers (hw.move m) :=
    fun _ _ hm h => h.move hm
  have hkeep {α : Type} {x : AppCode α} (h : Keeps TriggersOnly OnlyTriggers x) :
      Triple TriggersOnly OnlyTriggers x (fun _ => OnlyTriggers) (fun _ => True) :=
    h.conseq (fun _ h => h) (fun _ _ h => h) fun _ _ => trivial
  have hload : Triple TriggersOnly OnlyTriggers (load Hardware.usart1Isr)
      (fun isr hw => OnlyTriggers hw ∧ (isr &&& isrRxne ≠ 0 → hw.rdr = some otaTriggerByte))
      (fun _ => True) := by
    refine .access hmove (fun _ _ => trivial) fun hw h => ⟨h, fun hrxne => ?_⟩
    obtain ⟨byte, hbyte⟩ := Option.isSome_iff_exists.mp ((usart1Isr_rxne hw).mp hrxne)
    rw [hbyte, h byte hbyte]
  refine .bind (hkeep (keeps_clearOverrun hmove fun _ h => h)) fun _ => .bind hload fun isr =>
    .ite (fun hrxne => ?_) fun _ => ?_
  · refine .bind (triple_readRdr.conseq (fun _ h => h.2 hrxne) (fun _ _ h => h) fun _ h => h)
      fun rdr => .pure fun hw h => ⟨fun byte hbyte => ?_, h.2⟩
    rw [← Option.some.inj hbyte, h.1]
  · exact .pure fun hw h => ⟨nofun, h.1⟩

/-- A byte that waits is read. -/
theorem triple_getc_waiting :
    Triple TriggersOnly (fun hw => hw.rdr = some otaTriggerByte) uartGetc
      (fun byte? hw => byte? = some otaTriggerByte ∧ OnlyTriggers hw) (fun _ => True) := by
  have hmove : ∀ (hw : Hardware) (m : Move), TriggersOnly m → hw.rdr = some otaTriggerByte →
      (hw.move m).rdr = some otaTriggerByte := fun hw m _ h => hw.waits_move h m
  have hkeep {α : Type} {x : AppCode α}
      (h : Keeps TriggersOnly (fun hw => hw.rdr = some otaTriggerByte) x) :
      Triple TriggersOnly (fun hw => hw.rdr = some otaTriggerByte) x
        (fun _ hw => hw.rdr = some otaTriggerByte) (fun _ => True) :=
    h.conseq (fun _ h => h) (fun _ _ h => h) fun _ _ => trivial
  have hload : Triple TriggersOnly (fun hw => hw.rdr = some otaTriggerByte)
      (load Hardware.usart1Isr)
      (fun isr hw => isr &&& isrRxne ≠ 0 ∧ hw.rdr = some otaTriggerByte) (fun _ => True) := by
    refine .access hmove (fun _ _ => trivial) fun hw h => ⟨(usart1Isr_rxne hw).mpr ?_, h⟩
    rw [h]
    rfl
  refine .bind (hkeep (keeps_clearOverrun hmove fun _ h => h)) fun _ => .bind hload fun isr =>
    .of_and fun hrxne => ?_
  rw [if_pos hrxne]
  refine .bind triple_readRdr fun rdr => .pure fun hw h => ⟨?_, h.2⟩
  rw [h.1]

theorem triple_drainLoop_triggers (budget : Nat) :
    Triple TriggersOnly OnlyTriggers (drainLoop budget true true)
      (fun out _ => out = (true, true)) (fun _ => True) := by
  induction budget with
  | zero => exact .pure fun _ _ => rfl
  | succ budget ih =>
      refine .bind triple_getc_triggers fun byte? => .of_and fun hbyte => ?_
      cases byte? with
      | none => exact .pure fun _ _ => rfl
      | some c =>
          rw [hbyte c rfl]
          exact ih

/-- A poll that finds a byte waiting is a clean one. -/
theorem triple_poll_waiting (streak : Nat) :
    Triple TriggersOnly (fun hw => hw.rdr = some otaTriggerByte) (otaTriggerPoll streak)
      (fun out _ => out = advanceStreak streak true true ∧ True) (fun _ => True) := by
  have hdrain : Triple TriggersOnly (fun hw => hw.rdr = some otaTriggerByte)
      (drainLoop 16 false true) (fun out _ => out = (true, true)) (fun _ => True) := by
    refine .bind triple_getc_waiting fun byte? => .of_and fun hbyte => ?_
    rw [hbyte]
    exact triple_drainLoop_triggers 15
  refine .bind hdrain fun out => .pure fun _ h => ⟨?_, trivial⟩
  rw [h]

/-- What a clean poll makes of the streak. -/
def Counted (s : Loop) (out : Loop × PassEnd) : Prop :=
  if otaConfirmPolls ≤ s.streak + 1 then out.2 = .handsOver
  else (∃ work, out.2 = .goesOn work) ∧ out.1.streak = s.streak + 1

/-- A pass whose poll finds a byte waiting adds one to the streak, or hands over. -/
theorem triple_respond_waiting (s : Loop) (work : UInt32) :
    Triple TriggersOnly (fun hw => hw.rdr = some otaTriggerByte) (respond s work)
      (fun out _ => Counted s out) (fun _ => True) := by
  refine .bind (triple_poll_waiting s.streak) fun out => .of_and fun hout => ?_
  unfold Counted
  by_cases hfires : otaConfirmPolls ≤ s.streak + 1
  · have htrue : out = (0, true) := by
      rw [hout]
      simp [advanceStreak, hfires]
    subst htrue
    refine .bind (aside_true.keeps_handOver fun _ h => h) fun _ => .pure fun _ _ => ?_
    rw [if_pos hfires]
  · have hmore : out = (s.streak + 1, false) := by
      rw [hout]
      simp [advanceStreak, hfires]
    subst hmore
    refine .bind aside_true.keeps_checkLink fun linked => .pure fun _ _ => ?_
    rw [if_neg hfires]
    exact ⟨⟨_, rfl⟩, rfl⟩

end App

namespace Device

/-- The pass gets to its end without a cut, its poll finds a trigger byte waiting,
and nothing but trigger bytes comes in. -/
structure Held (d : Device) (schedule : List (Turn App.Move)) (faults : List Fault) : Prop where
  reports : ((report (d.loop.cycle + 1)).run d.hw schedule).2.isSome = true
  waiting : ((report (d.loop.cycle + 1)).run d.hw schedule).1.rdr = some otaTriggerByte
  triggers : Within TriggersOnly schedule
  ends : ((appPass d.loop).run d.hw schedule).2.isSome = true
  power : ∀ fault ∈ faults, fault ≠ .cutBefore ∧ fault ≠ .cutAfter

theorem Held.counted {d : Device} {schedule : List (Turn App.Move)} {faults : List Fault}
    (h : d.Held schedule faults) :
    ∃ hw out rest, (appPass d.loop).run d.hw schedule = (hw, some (out, rest)) ∧
      Counted d.loop out := by
  have hreports := h.reports
  have hwaits := h.waiting
  have hends := h.ends
  have hany := (aside_true.keeps_report (d.loop.cycle + 1)) d.hw trivial schedule h.triggers
  rcases hreport : (report (d.loop.cycle + 1)).run d.hw schedule with ⟨hw, _ | ⟨work, rest⟩⟩ <;>
    rw [hreport] at hreports hwaits hany
  · cases hreports
  have hrun : (appPass d.loop).run d.hw schedule =
      (respond { d.loop with cycle := d.loop.cycle + 1 } work).run hw rest :=
    Driven.run_bind_some hreport
  have hout := triple_respond_waiting { d.loop with cycle := d.loop.cycle + 1 } work hw hwaits rest
    hany.2
  rw [hrun] at hends ⊢
  rcases hback : (respond { d.loop with cycle := d.loop.cycle + 1 } work).run hw rest with
    ⟨hw', _ | ⟨out, rest'⟩⟩ <;> rw [hback] at hends hout
  · cases hends
  · exact ⟨hw', out, rest', rfl, hout.1⟩

/-- Any fault but a power cut. -/
def powered : Climate Flash FlashCall :=
  ⟨fun fault => fault ≠ .cutBefore ∧ fault ≠ .cutAfter, fun _ _ => True⟩

/-- Without a cut the confirmation gets to its end. -/
theorem confirmStartup_done (slot : Slot) (flash : Flash) {faults : List Fault}
    (hpower : ∀ fault ∈ faults, fault ≠ .cutBefore ∧ fault ≠ .cutAfter) :
    ∃ w, (confirmStartup slot).run ⟨flash, faults, []⟩ = (.done (), w) := by
  obtain ⟨-, hout⟩ := confirmStartup_triple (c := powered) flash (fun _ _ => trivial) slot
    ⟨flash, faults, []⟩ ⟨hpower, nofun⟩ rfl
  rcases hrun : (confirmStartup slot).run ⟨flash, faults, []⟩ with ⟨⟨⟩ | _, w⟩
  · exact ⟨w, rfl⟩
  · rw [hrun] at hout
    exact absurd ⟨fun h => h.1 rfl, fun h => h.2 rfl⟩ hout.1

/-- A pass on a held line hands over, or the application goes on with a longer
streak. -/
theorem step_held {d : Device} {schedule : List (Turn App.Move)} {faults : List Fault} {slot : Slot}
    (hmode : d.board.mode = .app slot) (h : d.Held schedule faults) :
    if otaConfirmPolls ≤ d.loop.streak + 1 then
      (d.step (.pass schedule faults)).board.mode = .reset ∧
        (d.step (.pass schedule faults)).pending = true
    else
      (d.step (.pass schedule faults)).board.mode = .app slot ∧
        (d.step (.pass schedule faults)).loop.streak = d.loop.streak + 1 := by
  obtain ⟨hw, ⟨loop, ending⟩, rest, hrun, hcounted⟩ := h.counted
  have hany : Within (fun _ : App.Move => True) schedule := fun _ _ => trivial
  have hpass := triple_appPass d.loop d.hw.request d.hw ⟨.start d.hw _, rfl⟩ schedule hany
  rw [hrun] at hpass
  unfold Counted at hcounted
  simp only [step, hmode, hrun]
  split
  next hfires =>
    rw [if_pos hfires] at hcounted
    obtain rfl : ending = .handsOver := hcounted
    exact ⟨rfl, decide_eq_true hpass.1.2⟩
  next hmore =>
    rw [if_neg hmore] at hcounted
    obtain ⟨⟨work, rfl⟩, hstreak⟩ := hcounted
    dsimp only
    unfold finishPass
    split
    · obtain ⟨w, hconfirm⟩ := confirmStartup_done slot d.board.flash h.power
      dsimp only
      rw [hconfirm]
      exact ⟨rfl, hstreak⟩
    · exact ⟨hmode, hstreak⟩

/-- While it runs, the application is handed passes on a held line. -/
def HeldEvent (d : Device) (e : DeviceEvent) : Prop :=
  ∀ slot, d.board.mode = .app slot → ∃ schedule faults, e = .pass schedule faults ∧
    d.Held schedule faults

/-- Where each poll of the running application finds a trigger byte waiting and
nothing but trigger bytes comes in, the device resets with a request pending
within four passes, however many bytes are lost to overruns, and earlier if polls
were counted before. -/
theorem held_line_hands_over {d : Device} {slot : Slot} (hmode : d.board.mode = .app slot)
    (hstreak : d.loop.streak < otaConfirmPolls) {events : List DeviceEvent}
    (hheld : Transition.Guarded step HeldEvent d events)
    (hlong : otaConfirmPolls ≤ d.loop.streak + events.length) :
    (d.run (events.take (otaConfirmPolls - d.loop.streak))).board.mode = .reset ∧
      (d.run (events.take (otaConfirmPolls - d.loop.streak))).pending = true := by
  induction events generalizing d with
  | nil => exact absurd hlong (by simpa using hstreak)
  | cons e events ih =>
      obtain ⟨schedule, faults, rfl, hpass⟩ := hheld.1 slot hmode
      have hstep := step_held hmode hpass
      rw [List.length_cons] at hlong
      obtain ⟨left, hleft⟩ : ∃ left, otaConfirmPolls - d.loop.streak = left + 1 :=
        ⟨otaConfirmPolls - d.loop.streak - 1, by omega⟩
      rw [hleft, List.take_succ_cons]
      by_cases hfires : otaConfirmPolls ≤ d.loop.streak + 1
      · rw [if_pos hfires] at hstep
        obtain rfl : left = 0 := by omega
        exact hstep
      · rw [if_neg hfires] at hstep
        obtain ⟨hmode', hstreak'⟩ := hstep
        have hrest := ih hmode' (by omega) hheld.2 (by omega)
        have hnext : otaConfirmPolls - (d.step (.pass schedule faults)).loop.streak = left := by
          omega
        rw [hnext] at hrest
        exact hrest

theorem triggersOnly_heldLine (turns : Nat) : Within TriggersOnly (heldLine turns) := by
  rintro m hmem byte rfl
  rcases device_of_heldLine hmem with h | h
  · exact Move.arrives.inj h
  · cases h

/-- Four passes of an application that has just started. -/
theorem held_line_hands_over_awake :
    (awake.run (List.replicate 4 (.pass (heldLine 150) []))).board.mode = .reset ∧
      (awake.run (List.replicate 4 (.pass (heldLine 150) []))).pending = true := by
  have hheld {d : Device} (hreports :
      ((report (d.loop.cycle + 1)).run d.hw (heldLine 150)).2.isSome = true)
      (hwaiting : ((report (d.loop.cycle + 1)).run d.hw (heldLine 150)).1.rdr = some otaTriggerByte)
      (hends : ((appPass d.loop).run d.hw (heldLine 150)).2.isSome = true) :
      HeldEvent d (.pass (heldLine 150) []) := fun _ _ =>
    ⟨_, _, rfl, hreports, hwaiting, triggersOnly_heldLine 150, hends, nofun⟩
  have hguard : Transition.Guarded step HeldEvent awake
      (List.replicate 4 (.pass (heldLine 150) [])) := by
    refine ⟨hheld ?_ ?_ ?_, hheld ?_ ?_ ?_, hheld ?_ ?_ ?_, hheld ?_ ?_ ?_, trivial⟩ <;>
      decide +kernel
  exact held_line_hands_over (rfl : awake.board.mode = .app .a) (by decide) hguard (by decide)

end Device

end OtaBoot
