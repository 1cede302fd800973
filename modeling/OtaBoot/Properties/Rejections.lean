import OtaBoot.Replies
import OtaBoot.Properties.Framing

/-!
# Rejections

A frame that is answered by a NACK, other than for a failure of the flash, has
cost nothing: flash is as it was, and so is the transfer, unless it was dropped.
After a rejected START_UPDATE or a frame with a bad CRC the manager goes on as if
the frame had not been sent.
-/

namespace OtaBoot

open Storage
open Host (Report reports after act withRx feedAll sendFrame_inj)

/-! ## What a rejection leaves -/

/-- What is left of the manager after a rejection: all of it, or what is left of a
dropped transfer where the rejection may drop it. -/
structure Spared (whole : Prop) (p p' : Protocol) : Prop where
  transfer : p'.toTransfer = p.toTransfer ∨ p'.toTransfer = p.toTransfer.abort
  whole : whole → p'.toTransfer = p.toTransfer ∧ p'.timeoutMs = p.timeoutMs ∧
    p'.lastActivityMs = p.lastActivityMs

/-- The program asks nothing of the flash and spares the manager whenever it
answers with a NACK that does not tell of a failure of the flash. -/
def Spares (whole : Prop) (p : Protocol) (x : FlashM Protocol) : Prop :=
  ∀ (w w' : World Flash FlashCall) (p' : Protocol) (seq : UInt16) (err : UInt8),
    x.run w = (.done p', w') → p'.tx = p.tx ++ sendFrame rspNack seq [err] → err ≠ errFlash →
      w' = w ∧ Spared whole p p'

namespace Spares

variable {whole : Prop} {p p' : Protocol} {x y : FlashM Protocol}

theorem keep (htransfer : p'.toTransfer = p.toTransfer) (htimeout : p'.timeoutMs = p.timeoutMs)
    (hactivity : p'.lastActivityMs = p.lastActivityMs) : Spares whole p (pure p') := by
  intro w w' q seq err hrun _ _
  cases hrun
  exact ⟨rfl, .inl htransfer, fun _ => ⟨htransfer, htimeout, hactivity⟩⟩

theorem abort (hpartly : ¬ whole) (htransfer : p'.toTransfer = p.toTransfer.abort) :
    Spares whole p (pure p') := by
  intro w w' q seq err hrun _ _
  cases hrun
  exact ⟨rfl, .inr htransfer, fun hwhole => absurd hwhole hpartly⟩

theorem read {f : Flash → FlashM Protocol} (h : ∀ flash, Spares whole p (f flash)) :
    Spares whole p (Faulty.read >>= f) :=
  fun w => h w.state w

theorem ite {cond : Prop} [Decidable cond] (hx : cond → Spares whole p x)
    (hy : ¬ cond → Spares whole p y) : Spares whole p (if cond then x else y) := by
  split
  next h => exact hx h
  next h => exact hy h

/-- Whatever asks something of the flash answers in one of two ways. -/
theorem of_yields (seq : UInt16)
    (h : Faulty.Yields (fun p' => p'.tx = p.tx ++ sendFrame rspAck seq [] ∨
      p'.tx = p.tx ++ sendFrame rspNack seq [errFlash]) x) : Spares whole p x := by
  intro w w' p' seq' err hrun hnack herr
  rcases h w w' p' hrun with hack | hfailed
  · exact absurd (hack.symm.trans hnack) (ack_ne_nack _ _ _ _)
  · have hsame := List.append_cancel_left (hfailed.symm.trans hnack)
    obtain ⟨-, -, hcode⟩ := sendFrame_inj (by simp) (by simp) hsame
    exact absurd (List.cons.inj hcode).1.symm herr

theorem congr {q : Protocol} (htransfer : q.toTransfer = p.toTransfer)
    (htimeout : q.timeoutMs = p.timeoutMs) (hactivity : q.lastActivityMs = p.lastActivityMs)
    (htx : q.tx = p.tx) (h : Spares whole q x) : Spares whole p x := by
  intro w w' p' seq err hrun hnack herr
  obtain ⟨hworld, hleft, hwhole⟩ := h w w' p' seq err hrun (htx ▸ hnack) herr
  refine ⟨hworld, ?_, ?_⟩
  · rwa [htransfer] at hleft
  · rwa [htransfer, htimeout, hactivity] at hwhole

end Spares

/-! ## The handlers -/

section Handlers

variable {whole : Prop} (p : Protocol) (seq : UInt16) (data : List UInt8)

theorem onGetInfo_spares : Spares whole p (p.onGetInfo seq) :=
  .read fun _ => .keep rfl rfl rfl

/-- All checks come before the record is written. -/
theorem onStartUpdate_spares : Spares whole p (p.onStartUpdate seq data) := by
  refine .ite (fun _ => .keep rfl rfl rfl) fun _ => .ite (fun _ => .keep rfl rfl rfl) fun _ => ?_
  refine .read fun flash => .ite (fun _ => .keep rfl rfl rfl) fun _ => ?_
  refine .ite (fun _ => .keep rfl rfl rfl) fun _ => .of_yields seq ?_
  exact .bind fun st => .ite (fun _ => .pure (.inr rfl)) fun _ => .pure (.inl rfl)

theorem onData_spares (hpartly : ¬ whole) : Spares whole p (p.onData seq data) := by
  refine .ite (fun _ => .keep rfl rfl rfl) fun _ => .ite (fun _ => .keep rfl rfl rfl) fun _ => ?_
  refine .ite (fun _ => .abort hpartly rfl) fun _ => .ite (fun _ => .keep rfl rfl rfl) fun _ => ?_
  refine .ite (fun _ => .abort hpartly rfl) fun _ => .of_yields seq ?_
  have hstored (st : FlashStatus) : Faulty.Yields (fun p' : Protocol =>
      p'.tx = p.tx ++ sendFrame rspAck seq [] ∨ p'.tx = p.tx ++ sendFrame rspNack seq [errFlash])
      (if st ≠ .ok then pure (p.sendNack seq errFlash).abortTransfer
      else do
        let st ← flashWrite (p.targetSlot.addr + p.bytesWritten) data
        if st ≠ .ok then pure (p.sendNack seq errFlash).abortTransfer
        else
          pure ({ p with toTransfer :=
            p.toTransfer.advanced seq (UInt32.ofNat data.length) }.sendAck seq)) :=
    .ite (fun _ => .pure (.inr rfl)) fun _ =>
      .bind fun _ => .ite (fun _ => .pure (.inr rfl)) fun _ => .pure (.inl rfl)
  exact .ite (fun _ => .bind hstored) fun _ => .bind hstored

/-- The image is read back before the record is written. -/
theorem onEndUpdate_spares (hpartly : ¬ whole) : Spares whole p (p.onEndUpdate seq) := by
  refine .ite (fun _ => .keep rfl rfl rfl) fun _ => .ite (fun _ => .abort hpartly rfl) fun _ => ?_
  refine .read fun flash => .ite (fun _ => .abort hpartly rfl) fun _ => .of_yields seq ?_
  exact .bind fun st => .ite (fun _ => .pure (.inr rfl)) fun _ => .pure (.inl rfl)

theorem dispatch_spares (cmd : UInt8) (hwhole : whole → cmd = cmdStartUpdate) :
    Spares whole p (p.dispatch cmd seq data) := by
  refine .congr (q := { p with cntFramesOk := p.cntFramesOk + 1 }) rfl rfl rfl rfl ?_
  refine .ite (fun _ => onGetInfo_spares _ seq) fun _ => ?_
  refine .ite (fun _ => onStartUpdate_spares _ seq data) fun hother => ?_
  have hpartly : ¬ whole := fun h => hother (hwhole h)
  refine .ite (fun _ => onData_spares _ seq data hpartly) fun _ => ?_
  refine .ite (fun _ => onEndUpdate_spares _ seq hpartly) fun _ => ?_
  exact .ite (fun _ => .abort hpartly rfl) fun _ => .keep rfl rfl rfl

/-- After which rejections a transfer goes on. -/
def Resumable : Report → Prop
  | .rejected => False
  | .badCrc _ => True
  | .dispatched frame => UInt8.ofNat frame.cmd = cmdStartUpdate

theorem act_spares (report : Report) : Spares (Resumable report) p (act p report) := by
  cases report with
  | rejected => exact .keep rfl rfl rfl
  | badCrc seq => exact .keep rfl rfl rfl
  | dispatched frame => exact dispatch_spares p _ _ _ id

end Handlers

/-! ## Going on -/

section Continuations

/-- What the manager does in addition to what another did before. -/
def onto (p q : Protocol) : Protocol :=
  { q with
    rx := p.rx
    lastActivityMs := p.lastActivityMs
    cntFramesOk := p.cntFramesOk + q.cntFramesOk
    cntFramesKo := p.cntFramesKo + q.cntFramesKo
    tx := p.tx ++ q.tx }

/-- The transfer alone, before anything is done. -/
def afresh (p : Protocol) : Protocol :=
  { protocolInit with toTransfer := p.toTransfer, timeoutMs := p.timeoutMs }

/-- What can be told of a manager by its transfer and by what it has sent since. -/
def observe (p q : Protocol) : Transfer × UInt32 × List UInt8 :=
  (q.toTransfer, q.timeoutMs, q.tx.drop p.tx.length)

variable (p q : Protocol)

theorem onto_afresh : onto p (afresh p) = p := by
  simp [onto, afresh, protocolInit]

theorem observe_onto : observe p (onto p q) = (q.toTransfer, q.timeoutMs, q.tx) := by
  simp [observe, onto]

theorem onto_send (cmd : UInt8) (seq : UInt16) (data : List UInt8) :
    onto p (q.send cmd seq data) = (onto p q).send cmd seq data := by
  simp [onto, Protocol.send]

theorem onto_sendAck (seq : UInt16) : onto p (q.sendAck seq) = (onto p q).sendAck seq :=
  onto_send p q _ _ _

theorem onto_sendNack (seq : UInt16) (err : UInt8) :
    onto p (q.sendNack seq err) = (onto p q).sendNack seq err :=
  onto_send p q _ _ _

theorem onto_abortTransfer : onto p q.abortTransfer = (onto p q).abortTransfer := rfl

theorem onto_complete (seq : UInt16) :
    onto p { q.sendAck seq with state := .complete } =
      { (onto p q).sendAck seq with state := .complete } := by
  simp [onto, Protocol.sendAck, Protocol.send]

/-- No command handler looks at what has been sent or counted. -/
theorem dispatch_onto (cmd : UInt8) (seq : UInt16) (data : List UInt8) :
    (onto p q).dispatch cmd seq data = onto p <$> q.dispatch cmd seq data := by
  have hinfo (q : Protocol) : (onto p q).onGetInfo seq = onto p <$> q.onGetInfo seq := by
    simp only [Protocol.onGetInfo, map_bind, map_pure, onto_send]
  have hstart (q : Protocol) :
      (onto p q).onStartUpdate seq data = onto p <$> q.onStartUpdate seq data := by
    simp only [Protocol.onStartUpdate, map_bind, map_pure, apply_ite (onto p <$> ·),
      onto_sendNack, onto_sendAck]
    rfl
  have hdata (q : Protocol) : (onto p q).onData seq data = onto p <$> q.onData seq data := by
    simp only [Protocol.onData, map_bind, map_pure, apply_ite (onto p <$> ·), onto_sendNack,
      onto_sendAck, onto_abortTransfer]
    rfl
  have hend (q : Protocol) : (onto p q).onEndUpdate seq = onto p <$> q.onEndUpdate seq := by
    simp only [Protocol.onEndUpdate, map_bind, map_pure, apply_ite (onto p <$> ·), onto_sendNack,
      onto_abortTransfer, onto_complete]
    rfl
  have hcount : { onto p q with cntFramesOk := (onto p q).cntFramesOk + 1 } =
      onto p { q with cntFramesOk := q.cntFramesOk + 1 } := by
    simp [onto, UInt32.add_assoc]
  simp only [Protocol.dispatch, apply_ite (onto p <$> ·), map_pure, onto_sendAck, onto_sendNack,
    onto_abortTransfer, ← hinfo, ← hstart, ← hdata, ← hend, hcount]

theorem act_onto (report : Report) : act (onto p q) report = onto p <$> act q report := by
  have hcount : { onto p q with cntFramesKo := (onto p q).cntFramesKo + 1 } =
      onto p { q with cntFramesKo := q.cntFramesKo + 1 } := by
    simp [onto, UInt32.add_assoc]
  cases report with
  | rejected =>
      rw [act, act, hcount]
      rfl
  | badCrc seq =>
      rw [act, act, hcount, ← onto_sendNack]
      rfl
  | dispatched frame => exact dispatch_onto p q _ _ _

theorem foldlM_onto (found : List Report) :
    found.foldlM act (onto p q) = onto p <$> found.foldlM act q := by
  induction found generalizing q with
  | nil => rfl
  | cons report found ih =>
      rw [List.foldlM_cons, List.foldlM_cons, act_onto, map_bind, bind_map_left]
      exact bind_congr ih

/-- Between two frames only the transfer decides how things go on. -/
theorem observe_feedAll (more : List UInt8) (hidle : p.rx.state = .magic0) :
    observe p <$> feedAll p more =
      (fun q => (q.toTransfer, q.timeoutMs, q.tx)) <$>
        (Host.parse more).foldlM act (afresh p) := by
  have hfold := foldlM_onto p (afresh p) (Host.parse more)
  rw [onto_afresh] at hfold
  rw [Host.feedAll_eq_act, Host.reports_eq_parse hidle, hfold, ← comp_map, ← comp_map]
  exact congrArg (· <$> _) (funext fun q => observe_onto p q)

end Continuations

/-! ## Whole frames -/

section Runs

variable {p p' : Protocol} {bytes : List UInt8} {report : Report}
  {w w' : World Flash FlashCall}

/-- A frame that is all that some bytes complete. -/
theorem feedAll_single (hone : reports p.rx bytes = [report]) :
    feedAll p bytes = withRx (after p.rx bytes) <$> act p report := by
  rw [Host.feedAll_eq_act, hone, List.foldlM_cons]
  exact congrArg (withRx (after p.rx bytes) <$> ·) (bind_pure _)

/-- The bytes of one frame, from whatever the receiver holds, in whatever state the
manager is, and whatever the fate of the flash: a NACK other than for the flash
costs nothing, and a transfer goes on after a rejected START_UPDATE or a bad CRC. -/
theorem rejection_spares {seq : UInt16} {err : UInt8} (hone : reports p.rx bytes = [report])
    (hrun : (feedAll p bytes).run w = (.done p', w'))
    (hnack : p'.tx = p.tx ++ sendFrame rspNack seq [err]) (herr : err ≠ errFlash) :
    w' = w ∧ (p'.toTransfer = p.toTransfer ∨ p'.toTransfer = p.toTransfer.abort) ∧
      (Resumable report → p'.toTransfer = p.toTransfer ∧ p'.timeoutMs = p.timeoutMs ∧
        p'.lastActivityMs = p.lastActivityMs ∧
        (p.rx.state = .magic0 → (after p.rx bytes).state = .magic0 →
          ∀ more, observe p' <$> feedAll p' more = observe p <$> feedAll p more)) := by
  rw [feedAll_single hone] at hrun
  obtain ⟨q, hact, rfl⟩ := Faulty.exists_of_run_map hrun
  obtain ⟨hworld, hspared⟩ := act_spares p report w w' q seq err hact hnack herr
  refine ⟨hworld, hspared.transfer, fun hresumable => ?_⟩
  obtain ⟨htransfer, htimeout, hactivity⟩ := hspared.whole hresumable
  refine ⟨htransfer, htimeout, hactivity, fun hidle hback more => ?_⟩
  have hsame : afresh (withRx (after p.rx bytes) q) = afresh p := by
    change { protocolInit with toTransfer := q.toTransfer, timeoutMs := q.timeoutMs } = afresh p
    rw [htransfer, htimeout]
    rfl
  rw [observe_feedAll p more hidle, observe_feedAll _ more hback, hsame]

end Runs

/-- A manager in the middle of a transfer. -/
def halfway : Protocol :=
  { protocolInit with
    state := .receiving
    expectedSeq := 3
    lastSeq := 2
    fwSize := 16
    bytesWritten := 8 }

/-- A START_UPDATE without its payload, in the middle of a transfer. -/
theorem rejection_spares_start :
    ∃ p' : Protocol, p'.tx = sendFrame rspNack 7 [errLength] ∧
      p'.toTransfer = halfway.toTransfer ∧
      ∀ more, observe p' <$> feedAll p' more = observe halfway <$> feedAll halfway more := by
  have hnoise : ¬ Host.magic <:+: [] := by decide
  have hstate : halfway.rx.state = .magic0 := rfl
  have hshort : ([] : List UInt8).length ≤ 1024 := by decide
  obtain ⟨rx, hidle, hreports, hafter⟩ :=
    Host.noisy_frame [] hstate hnoise cmdStartUpdate 7 hshort
  rw [List.nil_append, List.append_nil] at hreports hafter
  have hone : reports halfway.rx (sendFrame cmdStartUpdate 7 []) =
      [.dispatched ⟨cmdStartUpdate.toNat, 7, []⟩] := hreports
  have hrun : (feedAll halfway (sendFrame cmdStartUpdate 7 [])).run ⟨fun _ => 0xFF, [], []⟩ =
      (.done (withRx rx
        ({ halfway with cntFramesOk := halfway.cntFramesOk + 1 }.sendNack 7 errLength)),
        ⟨fun _ => 0xFF, [], []⟩) := by
    rw [feedAll_single hone, hafter]
    rfl
  obtain ⟨-, -, hwhole⟩ := rejection_spares hone hrun rfl (by decide)
  obtain ⟨htransfer, -, -, hcontinues⟩ := hwhole rfl
  exact ⟨_, rfl, htransfer, hcontinues rfl (hafter ▸ hidle)⟩

end OtaBoot
