import OtaBoot.Decision
import OtaBoot.System

/-!
# One step of the board

`StepEffect` says everything an event can do to a board, in terms of the
decisions made on the state before it. From it, `ledger_step` states the
refinement: an event makes at most the one edit of the ledger that it stands
for, `Board.edit`.
-/

namespace OtaBoot

open Storage
open Protocol (startRecord endRecord)

/-! ## Faults of an event -/

namespace Event

def faults : Event → List Fault
  | boot _ _ faults | byte _ faults | confirm faults => faults
  | poll _ | pollEnd | reset => []

/-- Nothing but power loss disturbs the flash. -/
def Quiet (e : Event) : Prop := ∀ fault ∈ e.faults, fault.Quiet

instance (e : Event) : Decidable e.Quiet :=
  inferInstanceAs (Decidable (∀ fault ∈ e.faults, fault.Quiet))

/-- The event is the application's confirmation. -/
def IsConfirm : Event → Prop
  | confirm _ => True
  | _ => False

/-- Nothing goes wrong, and no application confirms itself. -/
def Plain (e : Event) : Prop := e.faults = [] ∧ ¬ e.IsConfirm

theorem Plain.quiet {e : Event} (h : e.Plain) : e.Quiet := by
  intro fault hfault
  rw [h.1] at hfault
  cases hfault

end Event

/-- Any fault, or power cuts only. -/
def weather (quiet : Prop) : Climate Flash FlashCall :=
  ⟨fun fault => quiet → fault.Quiet, fun _ _ => True⟩

theorem weather_reportsNoError (quiet : Prop) : (weather quiet).ReportsNoError = quiet := by
  apply propext
  constructor
  · intro h
    by_contra hquiet
    exact h .lost fun hq => absurd hq hquiet
  · exact fun hquiet fault h => h hquiet

theorem Action.allowed_weather (quiet : Prop) (before : Flash) (t : Transfer) (a : Action) :
    a.Allowed before t (weather quiet) := by
  cases a with
  | answer | abort => trivial
  | start | store | finish => exact ⟨by intros; trivial, trivial⟩

/-! ## The edit of an event -/

def Action.edit (t : Transfer) : Action → Option Edit
  | answer | abort | store .. => none
  | start _ size crc ver => some (.start size crc ver)
  | finish _ => some (.install t.targetSlot t.fwSize t.fwCrc32 t.fwVersion)

def Decision.edit : Decision → Option Edit
  | park | run _ => none
  | attempt _ => some .attempt
  | rollback _ => some .rollback

/-- The edit that an event stands for. -/
def Board.edit (b : Board) (e : Event) : Option Edit :=
  match e, b.mode with
  | .boot .., .reset => (bootDecision b.flash).edit
  | .byte byte _, .update u =>
      match u.drain with
      | some (_, _ + 1, _) => (u.proto.byteAction b.flash byte).edit u.proto.toTransfer
      | _ => none
  | .confirm _, .app slot => (toConfirm b.flash slot).map fun _ => .confirm slot
  | _, _ => none

/-! ## What an event does -/

/-- What the end of a poll leaves of the transfer. -/
def TailOf (p p' : Protocol) : Prop :=
  p'.toTransfer = p.toTransfer ∨ p.state = .receiving ∧ p'.toTransfer = p.toTransfer.abort

theorem pollTail_tailOf (p : Protocol) (nowMs : UInt32) (received : Bool) :
    TailOf p (p.pollTail nowMs received) := by
  unfold Protocol.pollTail
  split
  · exact .inl rfl
  split
  next hstate =>
    split
    · exact .inr ⟨hstate, rfl⟩
    · exact .inl rfl
  next => exact .inl rfl

/-- Only a transfer under way can time out. -/
theorem TailOf.kept {p p' : Protocol} (h : TailOf p p') (hstate : p.state ≠ .receiving) :
    p'.toTransfer = p.toTransfer :=
  h.resolve_right fun habort => hstate habort.1

/-- The board after an event. -/
inductive StepEffect (quiet : Prop) (b : Board) : Event → Board → Prop
  | ignored {e : Event} (hnone : b.edit e = none) : StepEffect quiet b e b
  | reset : StepEffect quiet b .reset ⟨b.flash, .reset⟩
  | boot {otaRequest : Bool} {start : UInt32} {faults : List Fault} {after : Flash}
      {boot? : Option Boot} (hmode : b.mode = .reset)
      (heffect : BootEffect quiet otaRequest b.flash after boot?) :
      StepEffect quiet b (.boot otaRequest start faults)
        ⟨after, (boot?.map (Board.booted start)).getD .reset⟩
  | poll {u : Session} {nowMs : UInt32} (hmode : b.mode = .update u) :
      StepEffect quiet b (.poll nowMs)
        ⟨b.flash, .update { u with drain := some (nowMs, uartRxBufferSize, false) }⟩
  | byte {u : Session} {nowMs : UInt32} {budget : Nat} {received : Bool} {byte : UInt8}
      {faults : List Fault} {after : Flash} {proto? : Option Protocol}
      (hmode : b.mode = .update u) (hdrain : u.drain = some (nowMs, budget + 1, received))
      (heffect : ActionEffect quiet b.flash { u.proto with rx := (u.proto.rx.feed byte).1 }
        (u.proto.byteAction b.flash byte) after proto?) :
      StepEffect quiet b (.byte byte faults)
        ⟨after, (proto?.map fun proto =>
          .update { u with proto, drain := some (nowMs, budget, true) }).getD .reset⟩
  | listened {u : Session} {proto : Protocol} (hmode : b.mode = .update u)
      (htail : TailOf u.proto proto) :
      StepEffect quiet b .pollEnd ⟨b.flash, .update { u with proto, drain := none }⟩
  | restarted {u : Session} (hmode : b.mode = .update u) :
      StepEffect quiet b .pollEnd ⟨b.flash, .reset⟩
  | returned {u : Session} {slot : Slot} (hmode : b.mode = .update u)
      (hnext : u.next = some slot) (hstate : u.proto.state ≠ .complete) :
      StepEffect quiet b .pollEnd ⟨b.flash, .app slot⟩
  | confirm {slot : Slot} {faults : List Fault} {after : Flash} {running : Bool}
      (hmode : b.mode = .app slot) (heffect : ConfirmEffect quiet slot b.flash after running) :
      StepEffect quiet b (.confirm faults) ⟨after, if running then .app slot else .reset⟩

/-- Update mode with a transfer context in bounds. -/
def Board.Bounded (b : Board) : Prop := ∀ u, b.mode = .update u → u.proto.Bounded

/-- A relation between flash and the transfer context, in update mode. -/
def Board.Holds (R : Flash → Transfer → Prop) (b : Board) : Prop :=
  ∀ u, b.mode = .update u → R b.flash u.proto.toTransfer

section Step

variable {quiet : Prop} {b : Board} {e : Event}

/-- A program run under the faults of an event. -/
theorem settle_effect {α : Type} {x : FlashM α} {before : Flash} {faults : List Fault}
    {post : α → Flash → Prop} {crash : Flash → Prop} {after : α → Mode} {P : Board → Prop}
    (h : Triple (weather quiet) (· = before) x post crash)
    (hfaults : quiet → ∀ fault ∈ faults, fault.Quiet)
    (hdone : ∀ a flash, post a flash → P ⟨flash, after a⟩)
    (hcut : ∀ flash, crash flash → P ⟨flash, .reset⟩) :
    P (Board.settle after (x.run ⟨before, faults, []⟩)) := by
  have hrun := h.run_from faults fun fault hfault hquiet => hfaults hquiet fault hfault
  cases hx : x.run ⟨before, faults, []⟩ with
  | mk out w =>
      rw [hx] at hrun
      cases out with
      | done a => exact hdone a w.state hrun.1
      | cut => exact hcut w.state hrun.1

theorem polled_effect {u : Session} (hmode : b.mode = .update u) (nowMs : UInt32)
    (received : Bool) : StepEffect quiet b .pollEnd ⟨b.flash, Board.polled u nowMs received⟩ := by
  have htail := pollTail_tailOf u.proto nowMs received
  unfold Board.polled
  dsimp only
  split
  · exact .listened hmode htail
  · exact .restarted hmode
  next hverdict =>
    have hidle : (u.proto.pollTail nowMs received).state ≠ .complete := by
      intro hcomplete
      simp [updateVerdict, hcomplete] at hverdict
    split
    next slot hnext =>
      refine .returned hmode hnext fun hcomplete => hidle ?_
      rw [htail.kept (by rw [hcomplete]; decide), hcomplete]
    · exact .restarted hmode

theorem boot_effect {otaRequest : Bool} {start : UInt32} {faults : List Fault}
    (hmode : b.mode = .reset) (hquiet : quiet → (Event.boot otaRequest start faults).Quiet) :
    StepEffect quiet b (.boot otaRequest start faults)
      (b.step (.boot otaRequest start faults)) := by
  have htriple := bootMain_triple (c := weather quiet) b.flash (fun _ _ => trivial) otaRequest
  rw [weather_reportsNoError] at htriple
  simp only [Board.step, hmode]
  exact settle_effect htriple hquiet (fun boot flash h => .boot hmode h)
    (fun flash h => .boot hmode h)

theorem byte_effect {byte : UInt8} {faults : List Fault} {u : Session} {nowMs : UInt32}
    {budget : Nat} {received : Bool} (hb : b.Bounded) (hmode : b.mode = .update u)
    (hdrain : u.drain = some (nowMs, budget + 1, received))
    (hquiet : quiet → (Event.byte byte faults).Quiet) :
    StepEffect quiet b (.byte byte faults) (b.step (.byte byte faults)) := by
  have hacts : Acts (weather quiet) b.flash _ _ _ := feed_acts (hb u hmode) byte
  have htriple := hacts (Action.allowed_weather _ _ _ _)
  rw [weather_reportsNoError] at htriple
  simp only [Board.step, hmode, hdrain]
  exact settle_effect htriple hquiet (fun proto flash h => .byte hmode hdrain h)
    (fun flash h => .byte hmode hdrain h)

theorem confirm_effect {faults : List Fault} {slot : Slot} (hmode : b.mode = .app slot)
    (hquiet : quiet → (Event.confirm faults).Quiet) :
    StepEffect quiet b (.confirm faults) (b.step (.confirm faults)) := by
  have htriple := confirmStartup_triple (c := weather quiet) b.flash (fun _ _ => trivial) slot
  rw [weather_reportsNoError] at htriple
  simp only [Board.step, hmode]
  exact settle_effect htriple hquiet (fun _ flash h => .confirm hmode h)
    (fun flash h => .confirm hmode h)

/-- Everything an event can do. In each mode but one it is ignored. -/
theorem step_effect (hb : b.Bounded) (hquiet : quiet → e.Quiet) :
    StepEffect quiet b e (b.step e) := by
  cases e with
  | boot otaRequest start faults =>
      cases hmode : b.mode with
      | reset => exact boot_effect hmode hquiet
      | update | app =>
          simp only [Board.step, hmode]
          exact .ignored (by simp only [Board.edit, hmode])
  | poll nowMs =>
      cases hmode : b.mode with
      | update u =>
          simp only [Board.step, hmode]
          split
          · exact .poll hmode
          · exact .ignored rfl
      | reset | app =>
          simp only [Board.step, hmode]
          exact .ignored rfl
  | byte byte faults =>
      cases hmode : b.mode with
      | update u =>
          match hdrain : u.drain with
          | some (nowMs, budget + 1, received) => exact byte_effect hb hmode hdrain hquiet
          | some (nowMs, 0, received) | none =>
              simp only [Board.step, hmode, hdrain]
              exact .ignored (by simp only [Board.edit, hmode, hdrain])
      | reset | app =>
          simp only [Board.step, hmode]
          exact .ignored (by simp only [Board.edit, hmode])
  | pollEnd =>
      cases hmode : b.mode with
      | update u =>
          simp only [Board.step, hmode]
          split
          · exact polled_effect hmode _ _
          · exact .ignored rfl
      | reset | app =>
          simp only [Board.step, hmode]
          exact .ignored rfl
  | confirm faults =>
      cases hmode : b.mode with
      | app slot => exact confirm_effect hmode hquiet
      | reset | update =>
          simp only [Board.step, hmode]
          exact .ignored (by simp only [Board.edit, hmode])
  | reset => exact .reset

/-- Everything an event can do when any operation may fail in any way. -/
theorem step_effect_any (hb : b.Bounded) (e : Event) : StepEffect False b e (b.step e) :=
  step_effect hb False.elim

/-- Everything an event can do, given what happens to its operations. -/
theorem step_effect_own (hb : b.Bounded) (e : Event) : StepEffect e.Quiet b e (b.step e) :=
  step_effect hb id

/-- What holds of a new context, and what aborts and actions keep, is kept. -/
theorem StepEffect.holds {R : Flash → Transfer → Prop} {b' : Board}
    (heffect : StepEffect quiet b e b') (hb : b.Bounded) (h : b.Holds R)
    (hinit : ∀ flash, R flash protocolInit.toTransfer)
    (habort : ∀ {t : Transfer}, R b.flash t → R b.flash t.abort)
    (haction : ∀ {after : Flash} {p p' : Protocol} {a : Action},
      ActionEffect quiet b.flash p a after (some p') → p.Bounded →
      a.Justified b.flash p.toTransfer → R b.flash p.toTransfer → R after p'.toTransfer) :
    b'.Holds R := by
  cases heffect with
  | ignored => exact h
  | reset | restarted | returned =>
      intro u hu
      cases hu
  | @boot _ _ _ _ boot? _ heffect =>
      intro u hu
      cases boot? with
      | none => cases hu
      | some boot =>
          cases boot with
          | updateMode limitMs next =>
              cases hu
              exact hinit _
          | jump slot => cases hu
  | @poll u _ hmode =>
      intro u' hu'
      cases hu'
      exact h u hmode
  | @byte u _ _ _ _ _ _ proto? hmode _ heffect =>
      intro u' hu'
      cases proto? with
      | none => cases hu'
      | some proto =>
          cases hu'
          exact haction heffect (hb u hmode) (byteAction_justified (hb u hmode) _) (h u hmode)
  | @listened u proto hmode htail =>
      intro u' hu'
      cases hu'
      change R b.flash proto.toTransfer
      rcases htail with hsame | ⟨-, haborted⟩
      · exact hsame ▸ h u hmode
      · exact haborted ▸ habort (h u hmode)
  | @confirm _ _ _ running =>
      intro u hu
      cases running <;> cases hu

theorem StepEffect.bounded {b' : Board} (h : StepEffect quiet b e b') (hb : b.Bounded) :
    b'.Bounded := by
  have hholds : b.Holds fun _ t => t.Bounded := hb
  exact h.holds hb hholds (fun _ => Transfer.Bounded.init) (fun ht => ht.abort)
    fun heffect hp hjustified _ => heffect.bounded hp hjustified

theorem Board.bounded_step (hb : b.Bounded) (e : Event) : (b.step e).Bounded :=
  (step_effect_any hb e).bounded hb

theorem Board.bounded_reset (flash : Flash) : (⟨flash, .reset⟩ : Board).Bounded := by
  intro u hu
  cases hu

theorem Board.bounded_run (hb : b.Bounded) (events : List Event) : (b.run events).Bounded := by
  induction events generalizing b with
  | nil => exact hb
  | cons e events ih => exact ih (bounded_step hb e)

end Step

/-! ## The ledger under an event -/

/-- What has to be the case for an event to stand for an edit. -/
inductive Board.Cause (b : Board) : Event → Edit → Prop
  | attempt {otaRequest : Bool} {start : UInt32} {faults : List Fault} {m : Metadata}
      (hmode : b.mode = .reset) (hdecision : bootDecision b.flash = .attempt m) :
      Cause b (.boot otaRequest start faults) .attempt
  | rollback {otaRequest : Bool} {start : UInt32} {faults : List Fault} {m : Metadata}
      (hmode : b.mode = .reset) (hdecision : bootDecision b.flash = .rollback m) :
      Cause b (.boot otaRequest start faults) .rollback
  | start {u : Session} {byte : UInt8} {faults : List Fault} {seq : UInt16}
      {size crc ver : UInt32} (hmode : b.mode = .update u)
      (haction : u.proto.byteAction b.flash byte = .start seq size crc ver) :
      Cause b (.byte byte faults) (.start size crc ver)
  | install {u : Session} {byte : UInt8} {faults : List Fault} {seq : UInt16}
      (hmode : b.mode = .update u) (haction : u.proto.byteAction b.flash byte = .finish seq) :
      Cause b (.byte byte faults)
        (.install u.proto.targetSlot u.proto.fwSize u.proto.fwCrc32 u.proto.fwVersion)
  | confirm {slot : Slot} {faults : List Fault} (hmode : b.mode = .app slot) :
      Cause b (.confirm faults) (.confirm slot)

theorem Board.edit_cause {b : Board} {e : Event} {edit : Edit} (h : b.edit e = some edit) :
    b.Cause e edit := by
  unfold Board.edit at h
  split at h
  next hmode =>
    cases hdecision : bootDecision b.flash with
    | park | run => rw [hdecision] at h; cases h
    | attempt m =>
        rw [hdecision] at h
        cases h
        exact .attempt hmode hdecision
    | rollback m =>
        rw [hdecision] at h
        cases h
        exact .rollback hmode hdecision
  next byte _ u hmode =>
    split at h
    · cases haction : u.proto.byteAction b.flash byte with
      | answer | abort | store => rw [haction] at h; cases h
      | start seq size crc ver =>
          rw [haction] at h
          cases h
          exact .start hmode haction
      | finish seq =>
          rw [haction] at h
          cases h
          exact .install hmode haction
    · cases h
  next hmode =>
    rw [Option.map_eq_some_iff] at h
    obtain ⟨m, -, rfl⟩ := h
    exact .confirm hmode
  · cases h

/-- The event stands for an edit, and the ledger shows it afterwards. -/
def Board.Makes (b : Board) (e : Event) (edit : Edit) : Prop :=
  b.edit e = some edit ∧
    OtaBoot.ledgerAt (b.step e).flash = some (edit.apply (OtaBoot.ledgerOrBlank b.flash))

section LedgerStep

variable {quiet : Prop} {b b' : Board} {e : Event}

/-- A slot's content is no metadata. -/
theorem ChangedWithin.ledgerAt {s : Slot} {before after : Flash}
    (h : ChangedWithin s before after) : ledgerAt after = ledgerAt before :=
  ledgerAt_congr h.metadata

/-- What a stopped action leaves of the ledger. -/
theorem Action.Stopped.ledgerAt {before after : Flash} {t : Transfer} {a : Action}
    (h : a.Stopped before t after) (hb : t.Bounded) (hjustified : a.Justified before t) :
    ledgerAt after = ledgerAt before ∨
      ∃ edit, a.edit t = some edit ∧ ledgerAt after = some (edit.apply (ledgerOrBlank before)) := by
  cases a with
  | answer | abort => exact h.elim
  | start seq size crc ver =>
      rcases WriteStopped.ledgerAt h with hold | hnew
      · exact .inl hold
      · exact .inr ⟨_, rfl, hnew.trans (by rw [startRecord_ledger])⟩
  | store seq block => exact .inl (h.changedWithin hb hjustified.2).ledgerAt
  | finish seq =>
      rcases WriteStopped.ledgerAt h with hold | hnew
      · exact .inl hold
      · exact .inr ⟨_, rfl, hnew.trans (by rw [endRecord_ledger])⟩

/-- An action that was performed is one that stopped at its end. -/
theorem Action.Justified.stopped_image {before : Flash} {t : Transfer} {a : Action}
    (h : a.Justified before t) :
    a.image before t = before ∨ a.Stopped before t (a.image before t) := by
  cases a with
  | answer | abort => exact .inl rfl
  | start | finish => exact .inr (completeImage_stopped _ _)
  | store seq block => exact .inr (.inr (.full _ _ h.2.aligned))

theorem ActionEffect.ledgerAt {before after : Flash} {p : Protocol} {p? : Option Protocol}
    {a : Action} (h : ActionEffect quiet before p a after p?) (hb : p.Bounded)
    (hjustified : a.Justified before p.toTransfer) :
    ledgerAt after = ledgerAt before ∨
      ∃ edit, a.edit p.toTransfer = some edit ∧
        ledgerAt after = some (edit.apply (ledgerOrBlank before)) := by
  cases h with
  | performed =>
      rcases hjustified.stopped_image with heq | hstopped
      · exact .inl (by rw [heq])
      · exact hstopped.ledgerAt hb hjustified
  | failed hstopped => exact hstopped.ledgerAt hb hjustified
  | cut hstopped => exact hstopped.ledgerAt hb hjustified

/-- A boot leaves flash alone, or its write stops somewhere. -/
theorem BootEffect.stopped {before after : Flash} {otaRequest : Bool} {boot? : Option Boot}
    (h : BootEffect quiet otaRequest before after boot?) :
    after = before ∨ ∃ m src edit, metadataRead before = some m ∧
      (bootDecision before).edit = some edit ∧ src.ledger = edit.apply m.ledger ∧
      WriteStopped before src after := by
  have hjustified := bootDecision_justified before
  cases h with
  | parked | ran => exact .inl rfl
  | attempted hdecision hstopped | attemptCut hdecision hstopped =>
      rw [hdecision] at hjustified ⊢
      exact .inr ⟨_, _, _, hjustified.1, rfl, attemptRecord_ledger _, hstopped⟩
  | rolledBack hdecision =>
      rw [hdecision] at hjustified ⊢
      exact .inr ⟨_, _, _, hjustified.1, rfl, rollbackRecord_ledger _, completeImage_stopped _ _⟩
  | rollbackFailed hdecision hstopped | rollbackCut hdecision hstopped =>
      rw [hdecision] at hjustified ⊢
      exact .inr ⟨_, _, _, hjustified.1, rfl, rollbackRecord_ledger _, hstopped⟩

theorem BootEffect.ledgerAt {before after : Flash} {otaRequest : Bool} {boot? : Option Boot}
    (h : BootEffect quiet otaRequest before after boot?) :
    ledgerAt after = ledgerAt before ∨
      ∃ edit, (bootDecision before).edit = some edit ∧
        ledgerAt after = some (edit.apply (ledgerOrBlank before)) := by
  rcases h.stopped with rfl | ⟨m, src, edit, hread, hedit, hsrc, hstopped⟩
  · exact .inl rfl
  · exact (hstopped.ledgerAt_edit hread hsrc).imp_right fun hnew => ⟨edit, hedit, hnew⟩

theorem ConfirmEffect.ledgerAt {before after : Flash} {slot : Slot} {running : Bool}
    (h : ConfirmEffect quiet slot before after running) :
    ledgerAt after = ledgerAt before ∨
      ∃ m, toConfirm before slot = some m ∧
        ledgerAt after = some ((Edit.confirm slot).apply (ledgerOrBlank before)) := by
  cases h with
  | needless => exact .inl rfl
  | written hsome hstopped | cut hsome hstopped =>
      have hedited := hstopped.ledgerAt_edit (toConfirm_eq_some hsome).1
        (confirmRecord_ledger _ slot)
      exact hedited.imp_right fun hnew => ⟨_, hsome, hnew⟩

/-- An event makes the edit it stands for, or none. -/
theorem ledger_step (hb : b.Bounded) (e : Event) :
    ledgerAt (b.step e).flash = ledgerAt b.flash ∨ ∃ edit, b.Makes e edit := by
  have heffect := step_effect_any hb e
  unfold Board.Makes
  generalize b.step e = b' at heffect ⊢
  cases heffect with
  | ignored | reset | poll | listened | restarted | returned => exact .inl rfl
  | boot hmode heffect =>
      simp only [Board.edit, hmode]
      exact heffect.ledgerAt
  | byte hmode hdrain heffect =>
      simp only [Board.edit, hmode, hdrain]
      exact heffect.ledgerAt (hb _ hmode) (byteAction_justified (hb _ hmode) _)
  | confirm hmode heffect =>
      simp only [Board.edit, hmode]
      rcases heffect.ledgerAt with hold | ⟨m, hsome, hnew⟩
      · exact .inl hold
      · exact .inr ⟨_, by rw [hsome]; rfl, hnew⟩

/-- The edit that an event stands for is one that is allowed on the ledger. -/
def Board.Edits (allowed : Ledger → Edit → Prop) (b : Board) (e : Event) : Prop :=
  ∀ edit, b.edit e = some edit → allowed (OtaBoot.ledgerOrBlank b.flash) edit

/-- A property of ledgers that allowed edits preserve holds throughout a run of
allowed edits. -/
theorem ledger_invariant {P : Ledger → Prop} {allowed : Ledger → Edit → Prop}
    (hedit : ∀ l edit, allowed l edit → P l → P (edit.apply l))
    {events : List Event} (hb : b.Bounded) (hP : P (ledgerOrBlank b.flash))
    (hguard : Transition.Guarded Board.step (Board.Edits allowed) b events) :
    P (ledgerOrBlank (b.run events).flash) := by
  -- one step; a run follows by `invariant_run`
  have hstep (b : Board) (e : Event) (h : b.Bounded ∧ P (ledgerOrBlank b.flash))
      (hg : b.Edits allowed e) : (b.step e).Bounded ∧ P (ledgerOrBlank (b.step e).flash) := by
    refine ⟨Board.bounded_step h.1 e, ?_⟩
    rcases ledger_step h.1 e with hold | ⟨edit, hedited, hnew⟩
    · rw [ledgerOrBlank, hold]
      exact h.2
    · rw [ledgerOrBlank_of_ledgerAt hnew]
      exact hedit _ edit (hg edit hedited) h.2
  have hrun := Transition.invariant_run Board.step
    (fun b => b.Bounded ∧ P (ledgerOrBlank b.flash)) hstep ⟨hb, hP⟩ hguard
  exact hrun.2

end LedgerStep

/-! ## The write counter -/

/-- The counter of the record in force, 0 when there is none. -/
def counterAt (flash : Flash) : Nat := ((metadataRead flash).map fun m => m.counter.toNat).getD 0

section Counter

variable {flash after : Flash}

theorem counterOk_iff : CounterOk flash ↔ counterAt flash < 2 ^ 32 - 1 := by
  unfold CounterOk counterAt
  cases metadataRead flash <;> simp

theorem counterAt_completeImage {src : Metadata} (hcounter : counterAt flash < 2 ^ 32 - 1)
    (h : src.Sound) : counterAt (completeImage flash src) = counterAt flash + 1 := by
  have hok := counterOk_iff.mpr hcounter
  rw [counterAt, metadataRead_completeImage hok h]
  simp only [Option.map_some, Option.getD_some, writtenRecord, stamped_counter,
    selectTarget_counter, counterAt]
  cases hread : metadataRead flash with
  | none => rfl
  | some m => exact toNat_counter_succ (hok m hread)

theorem ChangedWithin.counterAt {s : Slot} (h : ChangedWithin s flash after) :
    counterAt after = counterAt flash := by
  rw [OtaBoot.counterAt, metadataRead_congr h.metadata, OtaBoot.counterAt]

/-- A write adds one to the counter, whatever happens to it. -/
theorem WriteStopped.counterAt_le {src : Metadata} (h : WriteStopped flash src after) :
    counterAt after ≤ counterAt flash + 1 := by
  rcases h.metadataRead with hold | ⟨-, -, hnew⟩
  · rw [OtaBoot.counterAt, hold, OtaBoot.counterAt]
    omega
  · rw [OtaBoot.counterAt, hnew, OtaBoot.counterAt]
    simp only [Option.map_some, Option.getD_some, writtenRecord, stamped_counter,
      selectTarget_counter]
    cases OtaBoot.metadataRead flash with
    | none => decide
    | some m =>
        -- a wrap makes it smaller
        simp only [Option.map_some, Option.getD_some, UInt32.toNat_add]
        exact Nat.mod_le _ _

theorem Action.Stopped.counterAt_le {t : Transfer} {a : Action} (h : a.Stopped flash t after)
    (hb : t.Bounded) (hjustified : a.Justified flash t) :
    counterAt after ≤ counterAt flash + 1 := by
  cases a with
  | answer | abort => exact h.elim
  | start | finish => exact WriteStopped.counterAt_le h
  | store seq block =>
      rw [(h.changedWithin hb hjustified.2).counterAt]
      omega

/-- No event writes the metadata twice. -/
theorem counterAt_step {b : Board} (hb : b.Bounded) (e : Event) :
    counterAt (b.step e).flash ≤ counterAt b.flash + 1 := by
  have heffect := step_effect_any hb e
  generalize b.step e = b' at heffect
  cases heffect with
  | ignored | reset | poll | listened | restarted | returned => exact Nat.le_succ _
  | boot hmode heffect =>
      rcases heffect.stopped with rfl | ⟨-, src, -, -, -, -, hstopped⟩
      · exact Nat.le_succ _
      · exact hstopped.counterAt_le
  | @byte u _ _ _ byte _ _ _ hmode hdrain heffect =>
      have hjustified : (u.proto.byteAction b.flash byte).Justified b.flash u.proto.toTransfer :=
        byteAction_justified (hb u hmode) byte
      cases heffect with
      | performed =>
          rcases hjustified.stopped_image with heq | hstopped
          · rw [heq]
            exact Nat.le_succ _
          · exact hstopped.counterAt_le (hb u hmode) hjustified
      | failed hstopped => exact hstopped.counterAt_le (hb u hmode) hjustified
      | cut hstopped => exact hstopped.counterAt_le (hb u hmode) hjustified
  | confirm hmode heffect =>
      cases heffect with
      | needless => exact Nat.le_succ _
      | written _ hstopped | cut _ hstopped => exact hstopped.counterAt_le

/-- A run shorter than the counter's range never exhausts it. -/
theorem counterOk_guarded {b : Board} {events : List Event} (hb : b.Bounded)
    (hcounter : counterAt b.flash + events.length < 2 ^ 32 - 1) :
    Transition.Guarded Board.step (fun b _ => CounterOk b.flash) b events := by
  induction events generalizing b with
  | nil => trivial
  | cons e events ih =>
      rw [List.length_cons] at hcounter
      have hstep := counterAt_step hb e
      refine ⟨counterOk_iff.mpr (by omega), ih (Board.bounded_step hb e) (by omega)⟩

end Counter

/-! ## Jumps -/

/-- The application that an event starts. -/
def Board.jumps (b : Board) (e : Event) : Option Slot :=
  match b.mode, (b.step e).mode with
  | .app _, _ => none
  | _, .app slot => some slot
  | _, _ => none

theorem Board.jumps_eq_some {b : Board} {e : Event} {s : Slot} (h : b.jumps e = some s) :
    (b.step e).mode = .app s ∧ ∀ slot, b.mode ≠ .app slot := by
  unfold jumps at h
  split at h
  · cases h
  next hnew hmode =>
    cases h
    exact ⟨hnew, hmode⟩
  · cases h

/-- Only a rollback jumps at once; every other jump is what update mode returns to. -/
theorem Board.jump_cases {b : Board} {e : Event} {s : Slot} (hb : b.Bounded)
    (h : b.jumps e = some s) :
    (∃ m, b.edit e = some .rollback ∧ bootDecision b.flash = .rollback m ∧ s = m.active.other ∧
      (b.step e).flash = completeImage b.flash (rollbackRecord m)) ∨
    ∃ u, b.mode = .update u ∧ u.next = some s ∧ u.proto.state ≠ .complete ∧
      (b.step e).flash = b.flash := by
  obtain ⟨happ, hnotApp⟩ := jumps_eq_some h
  have heffect := step_effect_any hb e
  generalize b.step e = b' at heffect happ
  cases heffect with
  | ignored => exact absurd happ (hnotApp s)
  | reset | restarted | poll | listened => cases happ
  | @boot _ _ _ _ boot? hmode heffect =>
      obtain rfl : boot? = some (.jump s) := by
        cases boot? with
        | none => cases happ
        | some boot =>
            cases boot with
            | updateMode limitMs next => cases happ
            | jump slot => cases happ; rfl
      cases heffect with
      | @rolledBack m hdecision =>
          refine .inl ⟨m, ?_, hdecision, rfl, rfl⟩
          simp only [edit, hmode, hdecision, Decision.edit]
  | @byte _ _ _ _ _ _ _ proto? => cases proto? <;> cases happ
  | @returned u slot hmode hnext hstate =>
      cases happ
      exact .inr ⟨u, hmode, hnext, hstate, rfl⟩
  | confirm hmode => exact absurd hmode (hnotApp _)

/-- No byte starts an application. -/
theorem Board.jumps_byte (b : Board) (byte : UInt8) (faults : List Fault) :
    b.jumps (.byte byte faults) = none := by
  refine Option.eq_none_iff_forall_ne_some.mpr fun s hjump => ?_
  obtain ⟨happ, hnotApp⟩ := jumps_eq_some hjump
  cases hmode : b.mode with
  | app slot => exact hnotApp slot hmode
  | reset =>
      simp only [step, hmode] at happ
      cases happ
  | update u =>
      simp only [step, hmode] at happ
      split at happ
      next nowMs budget received hdrain =>
        generalize (u.proto.feed byte).run ⟨b.flash, faults, []⟩ = result at happ
        obtain ⟨out, w⟩ := result
        cases out <;> cases happ
      next =>
        rw [hmode] at happ
        cases happ

end OtaBoot
