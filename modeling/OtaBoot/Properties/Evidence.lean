import OtaBoot.Passes
import OtaBoot.Properties.Transmission

/-!
# The refresh of the watchdog is earned

A pass refreshes the watchdog only if the pin was seen to change, the line to go
idle and the other line to be enabled. Where one of the three peripherals stops
working, no pass refreshes any more.
-/

namespace OtaBoot

open Storage App
open Driven (Triple Within)

namespace App

variable {allowed : Move → Prop}

/-! ## One peripheral each -/

/-- A port without its clock does not get it back. -/
theorem aside_unclocked : Aside allowed fun hw => hw.gpioClocked = false where
  move := by
    intro hw m _ h
    cases m with
    | arrives byte =>
        obtain ⟨rdr, ore, heq⟩ := hw.arrives_eq byte
        rwa [Hardware.move, heq]
    | gates => rfl
    | shifts | disables => exact h
  odr _ _ h := h
  tx _ _ h := h
  ore _ h := h
  rdr _ h := h

/-- A disabled receiver stays disabled. -/
theorem aside_disabled : Aside allowed fun hw => hw.cr1 &&& cr1Ue = 0 where
  move := by
    intro hw m _ h
    cases m with
    | arrives byte =>
        obtain ⟨rdr, ore, heq⟩ := hw.arrives_eq byte
        rwa [Hardware.move, heq]
    | disables =>
        change hw.cr1 &&& ~~~cr1Ue &&& cr1Ue = 0
        rw [UInt32.and_assoc, UInt32.not_and_self, UInt32.and_zero]
    | shifts | gates => exact h
  odr _ _ h := h
  tx _ _ h := h
  ore _ h := h
  rdr _ h := h

theorem aside_watchdog (writes : List Iwdg.RegWrite) :
    Aside allowed fun hw => hw.watchdog = writes where
  move := by
    intro hw m _ h
    cases m with
    | arrives byte =>
        obtain ⟨rdr, ore, heq⟩ := hw.arrives_eq byte
        rwa [Hardware.move, heq]
    | shifts | gates | disables => exact h
  odr _ _ h := h
  tx _ _ h := h
  ore _ h := h
  rdr _ h := h

/-! ## The evidence of a pass -/

/-- A port without its clock gives no evidence. -/
theorem triple_blink_unclocked :
    Triple allowed (fun hw => hw.gpioClocked = false) blink
      (fun work hw => work = 0 ∧ hw.gpioClocked = false) (fun hw => hw.gpioClocked = false) := by
  have hp : Aside allowed fun hw : Hardware => hw.gpioClocked = false := aside_unclocked
  have hread : Triple allowed (fun hw => hw.gpioClocked = false) (load Hardware.readOdr)
      (fun value hw => value = 0 ∧ hw.gpioClocked = false) (fun hw => hw.gpioClocked = false) := by
    refine .access hp.move (fun _ h => h) fun hw h => ⟨?_, h⟩
    simp [Hardware.readOdr, h]
  refine .bind hread fun before => .of_and fun hbefore => .bind hread fun odr => .of_and fun _ =>
    .bind (keeps_store hp.move ?_) fun _ => .bind hread fun after => .of_and fun hafter =>
      .pure fun hw h => ⟨?_, h⟩
  · intro hw h
    rw [Hardware.writeOdr, h]
    exact h
  · rw [hbefore, hafter, if_neg (fun hne => hne rfl)]

theorem triple_blink :
    Triple allowed (fun _ => True) blink (fun work _ => work = 0 ∨ work = workBlink)
      (fun _ => True) := by
  have hp : Aside allowed fun _ => True := aside_true
  refine .bind (keeps_load hp.move _) fun before => .bind (keeps_load hp.move _) fun odr =>
    .bind (keeps_store hp.move fun _ h => h) fun _ => .bind (keeps_load hp.move _) fun after =>
      .pure fun _ _ => ?_
  split
  · exact .inr rfl
  · exact .inl rfl

theorem triple_awaitReport (budget : Nat) :
    Triple allowed (fun _ => True) (awaitReport budget)
      (fun work _ => work = 0 ∨ work = workReport) (fun _ => True) := by
  have hp : Aside allowed fun _ => True := aside_true
  induction budget with
  | zero => exact .pure fun _ _ => .inl rfl
  | succ budget ih =>
      exact .bind (keeps_load hp.move _) fun isr => .ite (fun _ => .pure fun _ _ => .inr rfl)
        fun _ => ih

theorem triple_checkLink :
    Triple allowed (fun _ => True) checkLink (fun work _ => work = 0 ∨ work = workLink)
      (fun _ => True) := by
  have hp : Aside allowed fun _ => True := aside_true
  refine .bind (keeps_load hp.move _) fun cr1 => .pure fun _ _ => ?_
  split
  · exact .inr rfl
  · exact .inl rfl

theorem triple_checkLink_disabled :
    Triple allowed (fun hw => hw.cr1 &&& cr1Ue = 0) checkLink (fun work _ => work = 0)
      (fun _ => True) := by
  have hp : Aside allowed fun hw : Hardware => hw.cr1 &&& cr1Ue = 0 := aside_disabled
  have hread : Triple allowed (fun hw => hw.cr1 &&& cr1Ue = 0) (load Hardware.cr1)
      (fun cr1 _ => cr1 &&& cr1Ue = 0) (fun _ => True) :=
    .access hp.move (fun _ _ => trivial) fun hw h => h
  refine .bind hread fun cr1 => .pure fun _ h => ?_
  rw [if_neg (fun hne => hne h)]

/-- The pass does not get to its end with all of the evidence. -/
def Withheld (out : Loop × PassEnd) (_ : Hardware) : Prop := out.2 ≠ .goesOn workAll

/-- A pass is as good as the evidence of its first half and of the link. -/
theorem triple_withheld {p : Hardware → Prop} (hp : Aside allowed p) {early late : UInt32 → Prop}
    (s : Loop)
    (hreport : Triple allowed p (report (s.cycle + 1)) (fun work hw => early work ∧ p hw)
      (fun _ => True))
    (hlink : Triple allowed p checkLink (fun work _ => late work) (fun _ => True))
    (hall : ∀ work linked, early work → late linked → work ||| linked ≠ workAll) :
    Triple allowed p (appPass s) Withheld (fun _ => True) := by
  have hhands : Keeps allowed (fun _ => True) handOver := aside_true.keeps_handOver fun _ h => h
  refine .bind hreport fun work => .of_and fun hearly => .bind
    ((hp.keeps_otaTriggerPoll s.streak).conseq (fun _ h => h) (fun _ _ h => h) fun _ _ => trivial)
    fun out => .ite (fun _ => ?_) fun _ => ?_
  · exact .bind (hhands.conseq (fun _ _ => trivial) (fun _ _ h => h) fun _ h => h)
      fun _ => .pure fun _ _ => nofun
  · refine .bind hlink fun linked => .pure fun hw hlate heq => ?_
    exact hall work linked hearly hlate (PassEnd.goesOn.inj heq)

/-- The first half of a pass. -/
theorem triple_report {p : Hardware → Prop} (hp : Aside allowed p) {lit : UInt32 → Prop}
    (cycle : UInt32)
    (hblink : Triple allowed p blink (fun work hw => lit work ∧ p hw) (fun _ => True)) :
    Triple allowed p (report cycle)
      (fun work hw =>
        (∃ b r, lit b ∧ (r = 0 ∨ r = workReport) ∧ work = b ||| r) ∧ p hw)
      (fun _ => True) := by
  have hkeep {α : Type} {x : AppCode α} (h : Keeps allowed p x) :
      Triple allowed p x (fun _ => p) (fun _ => True) :=
    h.conseq (fun _ h => h) (fun _ _ h => h) fun _ _ => trivial
  refine .bind hblink fun b => .of_and fun hb => .bind (hkeep (hp.keeps_puts _)) fun _ =>
    .bind (hkeep (hp.keeps_dec _)) fun _ => .bind (hkeep (hp.keeps_puts _)) fun _ => ?_
  refine .bind (((triple_awaitReport 50000).and (hkeep (hp.keeps_awaitReport _))).conseq
    (fun _ h => ⟨trivial, h⟩) (fun _ _ h => h) fun _ h => h.1) fun r => .of_and fun hr => ?_
  exact .pure fun _ h => ⟨⟨b, r, hb, hr, rfl⟩, h⟩

theorem triple_unclocked (s : Loop) :
    Triple allowed (fun hw => hw.gpioClocked = false) (appPass s) Withheld (fun _ => True) := by
  have hblink : Triple allowed (fun hw => hw.gpioClocked = false) blink
      (fun work hw => work = 0 ∧ hw.gpioClocked = false) (fun _ => True) :=
    triple_blink_unclocked.conseq (fun _ h => h) (fun _ _ h => h) fun _ _ => trivial
  refine triple_withheld aside_unclocked s (triple_report aside_unclocked _ hblink)
    (triple_checkLink.conseq (fun _ _ => trivial) (fun _ _ h => h) fun _ h => h) ?_
  rintro work linked ⟨b, r, rfl, hr, rfl⟩ hlinked
  rcases hr with rfl | rfl <;> rcases hlinked with rfl | rfl <;> decide

theorem triple_disabled (s : Loop) :
    Triple allowed (fun hw => hw.cr1 &&& cr1Ue = 0) (appPass s) Withheld (fun _ => True) := by
  have hp : Aside allowed fun hw : Hardware => hw.cr1 &&& cr1Ue = 0 := aside_disabled
  have hblink : Triple allowed (fun hw => hw.cr1 &&& cr1Ue = 0) blink
      (fun work hw => (work = 0 ∨ work = workBlink) ∧ hw.cr1 &&& cr1Ue = 0) (fun _ => True) :=
    (triple_blink.and hp.keeps_blink).conseq (fun _ h => ⟨trivial, h⟩) (fun _ _ h => h)
      fun _ h => h.1
  refine triple_withheld hp s (triple_report hp _ hblink) triple_checkLink_disabled ?_
  rintro work linked ⟨b, r, hb, hr, rfl⟩ rfl
  rcases hb with rfl | rfl <;> rcases hr with rfl | rfl <;> decide

/-- Where nothing is shifted out, a character has no room after another. -/
theorem triple_putc_stalled (c : UInt8) :
    Triple (· ≠ .shifts) (fun hw => hw.tx.ready = false) (uartPutc c) (fun _ _ => False)
      (fun _ => True) := by
  have hwait : Triple (· ≠ .shifts) (fun hw : Hardware => hw.tx.ready = false)
      (Driven.await Hardware.move (fun hw => (txStatus hw.tx, hw)) fun isr => isr &&& isrTxe ≠ 0)
      (fun _ _ => False) (fun _ => True) := by
    refine .await ?_ (fun _ _ => trivial) (fun _ h _ => h) ?_
    · intro hw m hm h
      cases m with
      | arrives byte =>
          obtain ⟨rdr, ore, heq⟩ := hw.arrives_eq byte
          rwa [Hardware.move, heq]
      | shifts => exact absurd rfl hm
      | gates | disables => exact h
    · intro hw h hwanted
      have hready := (txStatus_txe hw.tx).mp (of_decide_eq_true hwanted)
      exact Bool.false_ne_true (h.symm.trans hready)
  exact .bind hwait fun _ => .of_false

/-- A pass that cannot send its report does not get to its end. -/
theorem triple_stalled (s : Loop) :
    Triple (· ≠ .shifts) (fun _ => True) (appPass s) Withheld (fun _ => True) := by
  have hfull : Triple (· ≠ .shifts) (fun _ => True) (uartPutc 0x63)
      (fun _ hw => hw.tx.ready = false) (fun _ => True) := by
    have hwait : Keeps (· ≠ .shifts) (fun _ => True) (Driven.await Hardware.move
        (fun hw : Hardware => (txStatus hw.tx, hw)) fun isr => isr &&& isrTxe ≠ 0) :=
      .await (fun _ _ _ h => h) (fun _ h => h) (fun _ h _ => h) fun _ h _ => h
    exact .bind hwait fun _ => .access (fun _ _ _ h => h) (fun _ h => h) fun _ _ => rfl
  have hputs : Triple (· ≠ .shifts) (fun _ => True) (uartPuts cycleText) (fun _ _ => False)
      (fun _ => True) :=
    .bind hfull fun _ => .bind (triple_putc_stalled _) fun _ => .of_false
  refine .bind (.bind (aside_true.keeps_blink) fun _ => .bind hputs fun _ => .of_false)
    fun _ => .of_false

end App

/-! ## The device -/

/-- The event is one of the bootloader, which refreshes the watchdog by itself. -/
def DeviceEvent.Bootloads : DeviceEvent → Prop
  | boot _ _ | poll _ | byte _ _ | pollEnd => True
  | pass _ _ | reset | powerUp _ | debugger => False

namespace Device

variable {allowed : App.Move → Prop} {p : Hardware → Prop}

theorem feedIf_of_ne {work : UInt32} (h : work ≠ workAll) (hw : Hardware) :
    hw.feedIf work = hw := by
  have hnone : ((Iwdg.iwdgFeedIf (work = workAll)).run []).1 = [] := by
    rw [decide_eq_false h]
    rfl
  rw [Hardware.feedIf, hnone, List.append_nil]

/-- What a pass without all of the evidence leaves of the registers. -/
theorem hw_finishPass {d : Device} {slot : Slot} {work : UInt32} {faults : List Fault}
    (h : work ≠ workAll) : (d.finishPass slot work faults).hw = d.hw := by
  unfold finishPass
  split
  · rcases (confirmStartup slot).run ⟨d.board.flash, faults, []⟩ with ⟨_ | _, w⟩
    · exact feedIf_of_ne h d.hw
    · rfl
  · exact feedIf_of_ne h d.hw

/-- Without all of the evidence a pass refreshes nothing. -/
theorem withheld_pass (hp : Aside allowed p)
    (hrequest : ∀ hw word, p hw → p { hw with request := word })
    (hwithheld : ∀ s, Triple allowed p (appPass s) Withheld fun _ => True) {d : Device}
    {schedule : List (Turn App.Move)} (hschedule : Within allowed schedule) (faults : List Fault)
    (h : p d.hw) :
    p (d.step (.pass schedule faults)).hw ∧
      (d.step (.pass schedule faults)).hw.watchdog = d.hw.watchdog := by
  cases hmode : d.board.mode with
  | reset | update =>
      simp only [step, hmode]
      exact ⟨h, trivial⟩
  | app slot =>
      have hkept := hp.keeps_appPass (fun hw => hrequest hw _) d.loop d.hw h schedule hschedule
      have hsame := (aside_watchdog d.hw.watchdog).keeps_appPass (fun _ h => h) d.loop d.hw rfl
        schedule hschedule
      have hnot := hwithheld d.loop d.hw h schedule hschedule
      simp only [step, hmode]
      rcases hrun : (appPass d.loop).run d.hw schedule with
        ⟨hw, _ | ⟨⟨loop, _ | work⟩, rest⟩⟩ <;> rw [hrun] at hkept hsame hnot
      · exact ⟨hkept, hsame⟩
      · exact ⟨hkept.1, hsame.1⟩
      · have hne : work ≠ workAll := fun heq => hnot.1 (congrArg PassEnd.goesOn heq)
        dsimp only
        rw [hw_finishPass hne]
        exact ⟨hkept.1, hsame.1⟩

theorem withheld_run (hp : Aside allowed p)
    (hrequest : ∀ hw word, p hw → p { hw with request := word })
    (hwithheld : ∀ s, Triple allowed p (appPass s) Withheld fun _ => True) {d : Device}
    {events : List DeviceEvent} (hnone : ∀ e ∈ events, ¬ e.Bootloads)
    (hschedules : ∀ schedule faults, .pass schedule faults ∈ events → Within allowed schedule)
    (h : p d.hw) : (d.run events).hw.watchdog = d.hw.watchdog := by
  have hguard : Transition.Guarded step (fun _ e => ¬ e.Bootloads ∧
      ∀ schedule faults, e = .pass schedule faults → Within allowed schedule) d events :=
    .of_forall (fun e he => ⟨hnone e he, fun schedule faults heq =>
      hschedules schedule faults (heq ▸ he)⟩) d
  refine (Transition.invariant_run step (fun d' => p d'.hw ∧ d'.hw.watchdog = d.hw.watchdog)
    ?_ ⟨h, rfl⟩ hguard).2
  rintro d' e ⟨hd, hwatchdog⟩ ⟨hnot, hwithin⟩
  cases e with
  | boot | poll | byte | pollEnd => exact absurd trivial hnot
  | reset => exact ⟨hd, hwatchdog⟩
  | powerUp word => exact ⟨hrequest _ _ hd, hwatchdog⟩
  | debugger => exact ⟨hrequest _ _ hd, hwatchdog⟩
  | pass schedule faults =>
      obtain ⟨hkept, hsame⟩ := withheld_pass hp hrequest hwithheld (hwithin schedule faults rfl)
        faults hd
      exact ⟨hkept, hsame.trans hwatchdog⟩

/-- Once the port has lost its clock, or USART1 is disabled, or while USART2 shifts
nothing out, the watchdog is not refreshed, however many passes the application
makes, until the bootloader runs again. -/
theorem watchdog_starves (d : Device) (events : List DeviceEvent)
    (hnone : ∀ e ∈ events, ¬ e.Bootloads)
    (hfailing : d.hw.gpioClocked = false ∨ d.hw.cr1 &&& cr1Ue = 0 ∨
      ∀ schedule faults, .pass schedule faults ∈ events → Within (· ≠ .shifts) schedule) :
    (d.run events).hw.watchdog = d.hw.watchdog := by
  have hany : ∀ schedule faults, .pass schedule faults ∈ events →
      Within (fun _ : App.Move => True) schedule := fun _ _ _ _ _ => trivial
  rcases hfailing with hclock | hlink | hstalled
  · exact withheld_run aside_unclocked (fun _ _ h => h) triple_unclocked hnone hany hclock
  · exact withheld_run aside_disabled (fun _ _ h => h) triple_disabled hnone hany hlink
  · exact withheld_run aside_true (fun _ _ h => h) triple_stalled hnone hstalled trivial

/-- A port that loses its clock after the second pass. -/
theorem watchdog_starves_unclocked :
    let d := awake.run (List.replicate 2 (.pass (heldLine 29) []))
    let gated : Device := { d with hw := d.hw.move .gates }
    d.hw.watchdog.length = 2 ∧
      (gated.run [.pass (heldLine 29) [], .reset]).hw.watchdog = gated.hw.watchdog := by
  refine ⟨by decide +kernel, watchdog_starves _ _ ?_ (.inl rfl)⟩
  intro e he
  rw [List.mem_cons, List.mem_singleton] at he
  rcases he with rfl | rfl <;> exact id

end Device

end OtaBoot
