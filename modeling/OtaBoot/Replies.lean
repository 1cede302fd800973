import OtaBoot.Delivery

/-!
# What a frame is answered

Every frame is answered by one frame with its sequence number. An ACK says that
the command was carried out, that the block is the one stored last, or that a
transfer was dropped on request.
-/

namespace OtaBoot

open Storage
open Protocol (startRecord endRecord)

/-! ## Commands and decisions -/

/-- Which commands lead to an action, and with what. -/
inductive Transfer.Decided (flash : Flash) (seq : UInt16) (data : List UInt8) :
    UInt8 → Action → Prop
  | answer {cmd : UInt8} : Decided flash seq data cmd .answer
  | abort {cmd : UInt8} (hcmd : cmd = cmdData ∨ cmd = cmdEndUpdate ∨ cmd = cmdAbort) :
      Decided flash seq data cmd .abort
  | start (hlen : data.length = 16) (haccept : (StartRequest.ofBytes data).Acceptable flash) :
      Decided flash seq data cmdStartUpdate (.start seq (StartRequest.ofBytes data).size
        (StartRequest.ofBytes data).crc (StartRequest.ofBytes data).ver)
  | store : Decided flash seq data cmdData (.store seq data)
  | finish : Decided flash seq data cmdEndUpdate (.finish seq)

theorem Transfer.action_decided (t : Transfer) (flash : Flash) (cmd : UInt8) (seq : UInt16)
    (data : List UInt8) : Decided flash seq data cmd (t.action flash cmd seq data) := by
  unfold Transfer.action
  dsimp only
  split
  · exact .answer
  split
  next hcmd =>
    subst hcmd
    split
    next h => exact .start h.1 h.2
    next => exact .answer
  split
  next hcmd =>
    subst hcmd
    -- the tests of `on_data` in their order
    repeat' split
    all_goals first | exact .answer | exact .abort (.inl rfl) | exact .store
  split
  next hcmd =>
    subst hcmd
    repeat' split
    all_goals first | exact .answer | exact .abort (.inr (.inl rfl)) | exact .finish
  split
  next hcmd => exact .abort (.inr (.inr hcmd))
  next => exact .answer

/-! ## Answers -/

/-- Flash after an accepted START_UPDATE. -/
def startImage (flash : Flash) (size crc ver : UInt32) : Flash :=
  completeImage flash (startRecord flash (freeSlot flash) size crc ver)

/-- A transfer that begins does not change which slot is free. -/
theorem freeSlot_startImage {flash : Flash} {size : UInt32} (crc ver : UInt32)
    (hsize : size ≤ slotSize) :
    freeSlot (startImage flash size crc ver) = freeSlot flash := by
  have hsound := startRecord_sound flash (freeSlot flash) crc ver hsize
  rcases (completeImage_stopped flash _).metadataRead with hold | ⟨-, -, hnew⟩
  · rw [freeSlot, startImage, hold, freeSlot]
  · rw [freeSlot_eq, startImage, ledgerOrBlank_of_ledgerAt (ledgerAt_of_read hnew),
      writtenRecord_ledger, startRecord_ledger, active_start, ← freeSlot_eq]

/-- The answer to a frame, by what it says. -/
inductive Answer (before : Flash) (p : Protocol) (cmd : UInt8) (seq : UInt16) (data : List UInt8)
    (p' : Protocol) (after : Flash) : Prop
  | performed (htx : p'.tx = p.tx ++ sendFrame rspAck seq [])
      (hacks : (p.toTransfer.action before cmd seq data).acks = some seq)
      (himage : after = (p.toTransfer.action before cmd seq data).image before p.toTransfer)
      (htransfer : p'.toTransfer =
        (p.toTransfer.action before cmd seq data).success before p.toTransfer)
  | repeated (htx : p'.tx = p.tx ++ sendFrame rspAck seq []) (hcmd : cmd = cmdData)
      (hstate : p.state = .receiving) (hseq : seq = p.lastSeq)
  | dropped (htx : p'.tx = p.tx ++ sendFrame rspAck seq []) (hcmd : cmd = cmdAbort)
  | refused {err : UInt8} (htx : p'.tx = p.tx ++ sendFrame rspNack seq [err])
  | informed {info : List UInt8} (htx : p'.tx = p.tx ++ sendFrame rspInfo seq info)
      (hcmd : cmd = cmdGetInfo)

section Acks

variable {flash after : Flash} {p p' : Protocol} {cmd : UInt8} {seq : UInt16} {data : List UInt8}

/-- An ACK is longer than nothing and shorter than a refusal. -/
theorem ack_ne_nack (tx : List UInt8) (seq seq' : UInt16) (err : UInt8) :
    tx ++ sendFrame rspAck seq [] ≠ tx ++ sendFrame rspNack seq' [err] := by
  intro h
  have hlen := congrArg List.length h
  simp [Receiver.length_sendFrame] at hlen

/-- An answer that is an ACK. -/
theorem Answer.of_ack (h : Answer flash p cmd seq data p' after)
    (hack : p'.tx = p.tx ++ sendFrame rspAck seq []) :
    ((p.toTransfer.action flash cmd seq data).acks = some seq ∧
      after = (p.toTransfer.action flash cmd seq data).image flash p.toTransfer ∧
      p'.toTransfer = (p.toTransfer.action flash cmd seq data).success flash p.toTransfer) ∨
    (cmd = cmdData ∧ p.state = .receiving ∧ seq = p.lastSeq) ∨ cmd = cmdAbort ∨
      cmd = cmdGetInfo := by
  cases h with
  | performed htx hacks himage htransfer => exact .inl ⟨hacks, himage, htransfer⟩
  | repeated htx hcmd hstate hseq => exact .inr (.inl ⟨hcmd, hstate, hseq⟩)
  | dropped htx hcmd => exact .inr (.inr (.inl hcmd))
  | informed htx hcmd => exact .inr (.inr (.inr hcmd))
  | refused htx => exact absurd (hack.symm.trans htx) (ack_ne_nack _ _ _ _)

/-- An ACK for a START_UPDATE says that the free slot was described. -/
theorem Answer.of_start_ack (h : Answer flash p cmdStartUpdate seq data p' after)
    (hack : p'.tx = p.tx ++ sendFrame rspAck seq []) :
    data.length = 16 ∧ (StartRequest.ofBytes data).Acceptable flash ∧
      after = startImage flash (StartRequest.ofBytes data).size (StartRequest.ofBytes data).crc
        (StartRequest.ofBytes data).ver ∧
      p'.toTransfer = p.toTransfer.started seq (freeSlot flash) (StartRequest.ofBytes data).size
        (StartRequest.ofBytes data).crc (StartRequest.ofBytes data).ver := by
  have hdecision := p.toTransfer.action_cmdStartUpdate flash seq data
  rcases h.of_ack hack with ⟨hacks, himage, htransfer⟩ | ⟨hcmd, -⟩ | hcmd | hcmd
  · by_cases haccept : data.length = 16 ∧ (StartRequest.ofBytes data).Acceptable flash
    · rw [hdecision, if_pos haccept] at himage htransfer
      exact ⟨haccept.1, haccept.2, himage, htransfer⟩
    · rw [hdecision, if_neg haccept] at hacks
      cases hacks
  all_goals exact absurd hcmd (by decide)

end Acks

section Handlers

variable {c : Climate Flash FlashCall} {before : Flash} {p : Protocol} {cmd : UInt8}
  {seq : UInt16} {data : List UInt8}

/-- A program answers a frame, where the calls of the frame's action are permitted. -/
def Answers (c : Climate Flash FlashCall) (before : Flash) (p : Protocol) (cmd : UInt8)
    (seq : UInt16) (data : List UInt8) (x : FlashM Protocol) : Prop :=
  (p.toTransfer.action before cmd seq data).Allowed before p.toTransfer c →
    Triple c (· = before) x (Answer before p cmd seq data) fun _ => True

theorem Answers.refuse {p' : Protocol} (err : UInt8)
    (htx : p'.tx = p.tx ++ sendFrame rspNack seq [err]) :
    Answers c before p cmd seq data (pure p') :=
  fun _ => Triple.pure fun _ _ => .refused htx

theorem Answers.read {x : Flash → FlashM Protocol}
    (h : Answers c before p cmd seq data (x before)) :
    Answers c before p cmd seq data (Faulty.read >>= x) :=
  fun hallowed => Triple.read_at (h hallowed)

theorem Answers.ite {cond : Prop} [Decidable cond] {x y : FlashM Protocol}
    (hx : cond → Answers c before p cmd seq data x)
    (hy : ¬ cond → Answers c before p cmd seq data y) :
    Answers c before p cmd seq data (if cond then x else y) :=
  fun hallowed => Triple.ite (fun h => hx h hallowed) fun h => hy h hallowed

/-- A handler that waits for a metadata write. -/
theorem Answers.metadataWrite {src : Metadata} {good bad : Protocol} (err : UInt8)
    (hallowed : (p.toTransfer.action before cmd seq data).Allowed before p.toTransfer c →
      Action.WriteAllowed before c src)
    (himage : (p.toTransfer.action before cmd seq data).image before p.toTransfer =
      completeImage before src)
    (hacks : (p.toTransfer.action before cmd seq data).acks = some seq)
    (hgood : good.toTransfer =
      (p.toTransfer.action before cmd seq data).success before p.toTransfer)
    (htx : good.tx = p.tx ++ sendFrame rspAck seq [])
    (hbad : bad.tx = p.tx ++ sendFrame rspNack seq [err]) :
    Answers c before p cmd seq data (OtaBoot.metadataWrite src >>= fun st =>
      if st ≠ .ok then pure bad else pure good) := by
  intro ha
  refine Triple.bind ((metadataWrite_triple _ _ (hallowed ha).1 (hallowed ha).2).conseq
    (fun _ h => h) (fun _ _ h => h) fun _ _ => trivial) fun st => ?_
  refine Triple.ite (fun _ => Triple.pure fun _ _ => .refused hbad) fun hst => Triple.pure ?_
  rintro after ⟨-, hok, -⟩
  exact .performed htx hacks ((hok (Decidable.not_not.mp hst)).2.trans himage.symm) hgood

theorem onStartUpdate_answers :
    Answers c before p cmdStartUpdate seq data (p.onStartUpdate seq data) := by
  refine Answers.ite (fun _ => .refuse _ rfl) fun hlen => ?_
  refine Answers.ite (fun _ => .refuse _ rfl) fun hproto => ?_
  refine Answers.read (Answers.ite (fun _ => .refuse _ rfl) fun hsize => ?_)
  refine Answers.ite (fun _ => .refuse _ rfl) fun hslot => ?_
  have haccepted : data.length = 16 ∧ (StartRequest.ofBytes data).Acceptable before :=
    ⟨Decidable.not_not.mp hlen, Decidable.not_not.mp hproto, hsize, Decidable.not_not.mp hslot⟩
  have haction : p.toTransfer.action before cmdStartUpdate seq data =
      .start seq (StartRequest.ofBytes data).size (StartRequest.ofBytes data).crc
        (StartRequest.ofBytes data).ver := by
    rw [Transfer.action_cmdStartUpdate, if_pos haccepted]
  refine Answers.metadataWrite errFlash (fun h => ?_) ?_ ?_ ?_ rfl rfl
  · rwa [haction] at h
  all_goals rw [haction]; rfl

theorem onData_answers (hb : p.Bounded) (hlen : data.length < 65536) :
    Answers c before p cmdData seq data (p.onData seq data) := by
  have hunfold := p.toTransfer.action_cmdData before seq data
  refine Answers.ite (fun _ => .refuse _ rfl) fun hstate => ?_
  refine Answers.ite (fun hseq _ => Triple.pure fun _ _ =>
    .repeated rfl rfl (Decidable.not_not.mp hstate) hseq) fun hnew => ?_
  refine Answers.ite (fun _ => .refuse _ rfl) fun hseq => ?_
  refine Answers.ite (fun _ => .refuse _ rfl) fun haligned => ?_
  refine Answers.ite (fun _ => .refuse _ rfl) fun hfits => ?_
  rw [if_neg hstate, if_neg hnew, if_neg hseq, if_neg haligned, if_neg hfits] at hunfold
  have hblock := Transfer.continues_of_checks hb hlen haligned hfits
  intro hallowed
  rw [hunfold] at hallowed
  refine Triple.bind_ite ((eraseIfPage_triple hb hblock hallowed.1).conseq (fun _ h => h)
    (fun _ _ h => h) fun _ _ => trivial) fun st => ?_
  refine Triple.ite (fun _ => Triple.pure fun _ _ => .refused rfl) fun hst => ?_
  refine Triple.bind ((flashWrite_triple (Transfer.blockAddr_writable hb hblock)
    hallowed.2).conseq (fun after h => h.2.1 (Decidable.not_not.mp hst)) (fun _ _ h => h)
    fun _ _ => trivial) fun st => ?_
  refine Triple.ite (fun _ => Triple.pure fun _ _ => .refused rfl) fun hst => Triple.pure ?_
  rintro after ⟨-, hok, -⟩
  refine .performed rfl (by rw [hunfold]; rfl) ?_ (by rw [hunfold]; rfl)
  rw [hunfold]
  exact hok (Decidable.not_not.mp hst)

theorem onEndUpdate_answers : Answers c before p cmdEndUpdate seq data (p.onEndUpdate seq) := by
  have hunfold := p.toTransfer.action_cmdEndUpdate before seq data
  refine Answers.ite (fun _ => .refuse _ rfl) fun hstate => ?_
  refine Answers.ite (fun _ => .refuse _ rfl) fun hwritten => ?_
  refine Answers.read (Answers.ite (fun _ => .refuse _ rfl) fun hcrc => ?_)
  rw [if_neg hstate, if_neg hwritten, if_neg hcrc] at hunfold
  refine Answers.metadataWrite errFlash (fun h => ?_) ?_ ?_ ?_ rfl rfl
  · rwa [hunfold] at h
  all_goals rw [hunfold]; rfl

/-- The frame counters do not matter. -/
theorem Answers.congr {x : FlashM Protocol} {q : Protocol}
    (htransfer : q.toTransfer = p.toTransfer) (htx : q.tx = p.tx)
    (h : Answers c before q cmd seq data x) : Answers c before p cmd seq data x := by
  have hanswer (p' : Protocol) (after : Flash) (h : Answer before q cmd seq data p' after) :
      Answer before p cmd seq data p' after := by
    have hstate : q.state = p.state := congrArg Transfer.state htransfer
    have hlast : q.lastSeq = p.lastSeq := congrArg Transfer.lastSeq htransfer
    cases h with
    | performed htx' hacks himage htransfer' =>
        exact .performed (htx ▸ htx') (htransfer ▸ hacks) (htransfer ▸ himage)
          (htransfer ▸ htransfer')
    | repeated htx' hcmd hstate' hseq =>
        exact .repeated (htx ▸ htx') hcmd (hstate ▸ hstate') (hlast ▸ hseq)
    | dropped htx' hcmd => exact .dropped (htx ▸ htx') hcmd
    | refused htx' => exact .refused (htx ▸ htx')
    | informed htx' hcmd => exact .informed (htx ▸ htx') hcmd
  intro hallowed
  exact (h (htransfer ▸ hallowed)).conseq (fun _ h => h) hanswer fun _ h => h

/-- A block that was stored last is acknowledged. -/
theorem dispatch_stored (hstate : p.state = .receiving) (hlast : seq = p.lastSeq) :
    p.dispatch cmdData seq data =
      pure ({ p with cntFramesOk := p.cntFramesOk + 1 }.sendAck seq) := by
  change (if p.state ≠ .receiving then _ else if seq = p.lastSeq then _ else _) = _
  rw [if_neg (not_not.mpr hstate), if_pos hlast]

/-- Every frame is answered. -/
theorem dispatch_answers (hb : p.Bounded) (cmd : UInt8) (seq : UInt16) (data : List UInt8)
    (hlen : data.length < 65536) :
    Answers c before p cmd seq data (p.dispatch cmd seq data) := by
  refine Answers.congr (q := { p with cntFramesOk := p.cntFramesOk + 1 }) rfl rfl ?_
  refine Answers.ite (fun h => ?_) fun hinfo => ?_
  · subst h
    exact Answers.read fun _ => Triple.pure fun _ _ => .informed rfl rfl
  refine Answers.ite (fun h => ?_) fun hstart => ?_
  · subst h
    exact onStartUpdate_answers
  refine Answers.ite (fun h => ?_) fun hdata => ?_
  · subst h
    exact onData_answers hb hlen
  refine Answers.ite (fun h => ?_) fun hend => ?_
  · subst h
    exact onEndUpdate_answers
  exact Answers.ite (fun h _ => Triple.pure fun _ _ => .dropped rfl h) fun _ => .refuse _ rfl

/-- START_UPDATE is answered whatever the transfer context holds. -/
theorem dispatch_start_answers (p : Protocol) (seq : UInt16) (data : List UInt8) :
    Answers c before p cmdStartUpdate seq data (p.dispatch cmdStartUpdate seq data) :=
  Answers.congr (q := { p with cntFramesOk := p.cntFramesOk + 1 }) rfl rfl onStartUpdate_answers

end Handlers

theorem Action.allowed_calm (before : Flash) (t : Transfer) (a : Action) :
    a.Allowed before t .calm := by
  cases a with
  | answer | abort => trivial
  | start | store | finish => exact ⟨by intros; trivial, trivial⟩

theorem Action.allowed_harsh (before : Flash) (t : Transfer) (a : Action) :
    a.Allowed before t .harsh := by
  cases a with
  | answer | abort => trivial
  | start | store | finish => exact ⟨by intros; trivial, trivial⟩

/-- An ACK for a START_UPDATE, whatever happened to the flash meanwhile. -/
theorem start_acked {flash : Flash} {faults : List Fault} {w : World Flash FlashCall}
    {p p' : Protocol} {seq : UInt16} {data : List UInt8} (hb : p.Bounded)
    (hlen : data.length < 65536)
    (hrun : (p.dispatch cmdStartUpdate seq data).run ⟨flash, faults, []⟩ = (.done p', w))
    (hack : p'.tx = p.tx ++ sendFrame rspAck seq []) :
    data.length = 16 ∧ (StartRequest.ofBytes data).Acceptable flash ∧
      w.state = startImage flash (StartRequest.ofBytes data).size (StartRequest.ofBytes data).crc
        (StartRequest.ofBytes data).ver ∧
      p'.toTransfer = p.toTransfer.started seq (freeSlot flash) (StartRequest.ofBytes data).size
        (StartRequest.ofBytes data).crc (StartRequest.ofBytes data).ver := by
  have hanswers : Answers .harsh flash p cmdStartUpdate seq data _ :=
    dispatch_answers hb cmdStartUpdate seq data hlen
  have hanswer := (hanswers (Action.allowed_harsh _ _ _)).run_from faults fun _ _ => trivial
  rw [hrun] at hanswer
  exact hanswer.1.of_start_ack hack

/-! ## The last byte of a frame -/

section Step

/-- The frame that an event completes. -/
def Board.frame (b : Board) (e : Event) : Option (UInt8 × UInt16 × List UInt8) :=
  match e, b.mode with
  | .byte byte _, .update u =>
      match u.drain, (u.proto.rx.feed byte).2 with
      | some (_, _ + 1, _), .frame cmd seq data => some (cmd, seq, data)
      | _, _ => none
  | _, _ => none

variable {quiet : Prop} {b : Board} {e : Event} {cmd : UInt8} {seq : UInt16} {data : List UInt8}

theorem Board.frame_eq_some (h : b.frame e = some (cmd, seq, data)) :
    ∃ u nowMs budget received byte faults, e = .byte byte faults ∧ b.mode = .update u ∧
      u.drain = some (nowMs, budget + 1, received) ∧
      (u.proto.rx.feed byte).2 = .frame cmd seq data := by
  unfold frame at h
  split at h
  next byte faults u hmode =>
    split at h
    next nowMs budget received cmd' seq' data' hdrain hevent =>
      cases h
      exact ⟨u, nowMs, budget, received, byte, faults, rfl, hmode, hdrain, hevent⟩
    next => cases h
  next => cases h

/-- The last byte of a frame: what it does, and what it is answered. -/
theorem Board.step_frame {u : Session} {nowMs : UInt32} {budget : Nat} {received : Bool}
    {byte : UInt8} {faults : List Fault} {P : Board → Prop} (hb : b.Bounded)
    (hmode : b.mode = .update u) (hdrain : u.drain = some (nowMs, budget + 1, received))
    (hevent : (u.proto.rx.feed byte).2 = .frame cmd seq data)
    (hquiet : quiet → (Event.byte byte faults).Quiet)
    (hdone : ∀ p' after,
      ActionEffect quiet b.flash { u.proto with rx := (u.proto.rx.feed byte).1 }
        (u.proto.toTransfer.action b.flash cmd seq data) after (some p') →
      Answer b.flash { u.proto with rx := (u.proto.rx.feed byte).1 } cmd seq data p' after →
      P ⟨after, .update { u with proto := p', drain := some (nowMs, budget, true) }⟩)
    (hcut : ∀ after,
      ActionEffect quiet b.flash { u.proto with rx := (u.proto.rx.feed byte).1 }
        (u.proto.toTransfer.action b.flash cmd seq data) after none → P ⟨after, .reset⟩) :
    P (b.step (.byte byte faults)) := by
  have hlen := Receiver.feed_frame_length hevent
  have hb' : ({ u.proto with rx := (u.proto.rx.feed byte).1 } : Protocol).Bounded := hb u hmode
  have hallowed := Action.allowed_weather quiet b.flash u.proto.toTransfer
    (u.proto.toTransfer.action b.flash cmd seq data)
  have hacts := dispatch_acts hb' cmd seq data hlen hallowed
  rw [weather_reportsNoError] at hacts
  have htriple := hacts.and (dispatch_answers hb' cmd seq data hlen hallowed)
  simp only [Board.step, hmode, hdrain, Protocol.feed, hevent]
  exact settle_effect htriple hquiet (fun p' after h => hdone p' after h.1 h.2)
    fun after h => hcut after h.1

/-- A frame that leaves the board in update mode is acted on and answered. -/
theorem Board.handled {u u' : Session} (hb : b.Bounded) (hframe : b.frame e = some (cmd, seq, data))
    (hmode : b.mode = .update u) (hmode' : (b.step e).mode = .update u') :
    ∃ rx, data.length < 65536 ∧
      ActionEffect False b.flash { u.proto with rx }
        (u.proto.toTransfer.action b.flash cmd seq data) (b.step e).flash (some u'.proto) ∧
      Answer b.flash { u.proto with rx } cmd seq data u'.proto (b.step e).flash := by
  obtain ⟨u₁, nowMs, budget, received, byte, faults, rfl, hmode₁, hdrain, hevent⟩ :=
    frame_eq_some hframe
  obtain rfl : u = u₁ := by
    rw [hmode] at hmode₁
    exact Mode.update.inj hmode₁
  refine ⟨(u.proto.rx.feed byte).1, Receiver.feed_frame_length hevent, ?_⟩
  refine Board.step_frame (P := fun b' => b'.mode = .update u' →
    ActionEffect False b.flash { u.proto with rx := (u.proto.rx.feed byte).1 }
        (u.proto.toTransfer.action b.flash cmd seq data) b'.flash (some u'.proto) ∧
      Answer b.flash { u.proto with rx := (u.proto.rx.feed byte).1 } cmd seq data u'.proto b'.flash)
    hb hmode hdrain hevent (fun h : False => h.elim) ?_ ?_ hmode'
  · intro p' after heffect hanswer hmode'
    cases hmode'
    exact ⟨heffect, hanswer⟩
  · intro after _ hmode'
    cases hmode'

end Step

/-! ## Without faults -/

section Calm

variable {before after : Flash} {p p' : Protocol} {cmd : UInt8} {seq : UInt16} {data : List UInt8}

/-- A frame that nothing disturbs is acted on and answered. -/
theorem dispatch_calm (flash : Flash) (hb : p.Bounded) (cmd : UInt8) (seq : UInt16)
    (data : List UInt8) (hlen : data.length < 65536) :
    ∃ p' w, (p.dispatch cmd seq data).run ⟨flash, [], []⟩ = (.done p', w) ∧
      ActionEffect True flash p (p.toTransfer.action flash cmd seq data) w.state (some p') ∧
      Answer flash p cmd seq data p' w.state := by
  have hallowed := Action.allowed_calm flash p.toTransfer (p.toTransfer.action flash cmd seq data)
  have hacts := dispatch_acts hb cmd seq data hlen hallowed
  rw [eq_true Climate.calm_reportsNoError] at hacts
  exact (hacts.and (dispatch_answers hb cmd seq data hlen hallowed)).run_calm

end Calm

end OtaBoot
