import OtaBoot.Reactions

/-!
# The board while an image is announced

Until END_UPDATE reaches it, a board that is sent one announcement and its blocks
keeps to what was announced, and none of its ACKs has the number of END_UPDATE. After
that an ACK with this number says that the image is on trial.
-/

namespace OtaBoot.Host

open Storage Raising LittleEndian

/-! ## What can be encoded -/

section Encoding

theorem exists_of_bind_ok {α β : Type} {x : Except HostError α} {f : α → Except HostError β} {b : β}
    (h : x >>= f = .ok b) : ∃ a, x = .ok a ∧ f a = .ok b := by
  cases x with
  | ok a => exact ⟨a, rfl, h⟩
  | error e => cases h

theorem lt_of_packField {width n : Nat} {bytes : List UInt8} (h : packField width n = .ok bytes) :
    n < 256 ^ width := by
  by_contra hlarge
  rw [packField, if_neg hlarge] at h
  cases h

theorem length_of_packField {width n : Nat} {bytes : List UInt8}
    (h : packField width n = .ok bytes) : bytes.length = width := by
  rw [packField, if_pos (lt_of_packField h)] at h
  obtain rfl := Except.ok.inj h
  rw [List.length_map, List.length_range]

variable {frame : Frame} {raw : List UInt8}

/-- What was encoded had room in the fields, and is a frame of the firmware. -/
theorem encodable_of_encode (h : encode frame = .ok raw) : frame.Encodable := by
  rw [encode] at h
  split at h
  next => cases h
  next hshort =>
    obtain ⟨cmd, hcmd, h⟩ := exists_of_bind_ok h
    obtain ⟨length, -, h⟩ := exists_of_bind_ok h
    obtain ⟨seq, hseq, -⟩ := exists_of_bind_ok h
    exact ⟨lt_of_packField hcmd, lt_of_packField hseq, Nat.not_lt.mp hshort⟩

/-- The tool encodes as the firmware does. -/
theorem encode_eq_sendFrame (cmd : UInt8) {seq : Nat} {data raw : List UInt8}
    (h : encode ⟨cmd.toNat, seq, data⟩ = .ok raw) :
    raw = sendFrame cmd (UInt16.ofNat seq) data ∧ (UInt16.ofNat seq).toNat = seq ∧
      data.length ≤ 1024 := by
  have hencodable := encodable_of_encode h
  have hsame := h.symm.trans hencodable.encode_eq
  rw [UInt8.ofNat_toNat] at hsame
  exact ⟨Except.ok.inj hsame, UInt16.toNat_ofNat_of_lt' hencodable.seq, hencodable.short⟩

/-- The manager dispatches the frame that was encoded. -/
theorem act_dispatched {cmd : UInt8} {seq : UInt16} {data : List UInt8}
    (h : encode frame = .ok (sendFrame cmd seq data)) (hshort : data.length ≤ 1024)
    (p : Protocol) : act p (.dispatched frame) = p.dispatch cmd seq data := by
  have hencodable := encodable_of_encode h
  have hsame := hencodable.encode_eq.symm.trans h
  obtain ⟨rfl, rfl, rfl⟩ := sendFrame_inj hencodable.short hshort (Except.ok.inj hsame)
  rfl

/-- What START_UPDATE announces can be read from its payload. -/
theorem fields_of_pack {su : StartUpdate} {data : List UInt8} (h : su.pack = .ok data) :
    data.length = 16 ∧ (StartRequest.ofBytes data).size.toNat = su.fwSize ∧
      (StartRequest.ofBytes data).crc.toNat = su.fwCrc32 ∧
      (StartRequest.ofBytes data).ver.toNat = su.fwVersion ∧
      (StartRequest.ofBytes data).slot.toNat = su.targetSlot := by
  obtain ⟨size, hsize, h⟩ := exists_of_bind_ok h
  obtain ⟨crc, hcrc, h⟩ := exists_of_bind_ok h
  obtain ⟨ver, hver, h⟩ := exists_of_bind_ok h
  obtain ⟨slot, hslot, h⟩ := exists_of_bind_ok h
  obtain ⟨version, hversion, h⟩ := exists_of_bind_ok h
  obtain ⟨reserved, hreserved, h⟩ := exists_of_bind_ok h
  have hword {n : Nat} {bytes : List UInt8} (hpack : packField 4 n = .ok bytes) :
      ∃ w : UInt32, bytes = bytes32 w ∧ w.toNat = n := by
    have htoNat := UInt32.toNat_ofNat_of_lt' (lt_of_packField hpack : n < 2 ^ 32)
    rw [← htoNat, packField_four] at hpack
    exact ⟨_, (Except.ok.inj hpack).symm, htoNat⟩
  obtain ⟨sizeWord, rfl, hsizeNat⟩ := hword hsize
  obtain ⟨crcWord, rfl, hcrcNat⟩ := hword hcrc
  obtain ⟨verWord, rfl, hverNat⟩ := hword hver
  have hslotNat := UInt8.toNat_ofNat_of_lt' (lt_of_packField hslot : su.targetSlot < 2 ^ 8)
  rw [← hslotNat, packField_one] at hslot
  obtain rfl := Except.ok.inj hslot
  obtain rfl := Except.ok.inj h
  rw [← hsizeNat, ← hcrcNat, ← hverNat, ← hslotNat]
  have hlength := length_of_packField hversion
  have hlength' := length_of_packField hreserved
  simp [StartRequest.ofBytes, bytes32, hlength, hlength']

end Encoding

/-! ## The board during a transfer -/

/-- A transfer that is under way is the one that was announced. -/
structure Announced (r : StartRequest) (t : Transfer) : Prop where
  bounded : t.Bounded
  fields : t.state = .receiving →
    t.fwSize = r.size ∧ t.fwCrc32 = r.crc ∧ t.fwVersion = r.ver ∧ t.targetSlot.toByte = r.slot

/-- END_UPDATE was carried out: the record in force puts what was announced on trial. -/
structure OnTrial (r : StartRequest) (t : Transfer) (flash : Flash) : Prop where
  state : t.state = .complete
  ledger : ∃ s l, s.toByte = r.slot ∧ ledgerAt flash = some l ∧ l.active = s ∧
    l.slot s = ⟨r.size, r.crc, r.ver, stateTesting⟩

/-- No END_UPDATE has reached the board, and what it has sent are NACKs, or ACKs with
other numbers than that of END_UPDATE. -/
structure Gathering (r : StartRequest) (last : Nat) (known : Prop) (bound : Nat) (p : Protocol)
    (flash : Flash) : Prop where
  replies : Replies (fun frame => frame.cmd ≠ rspNack →
    frame.seq ≠ last ∧ Announced r p.toTransfer) p.tx
  known : known → Announced r p.toTransfer
  counter : counterAt flash ≤ bound

/-- An ACK with the number of END_UPDATE says that it was carried out. -/
def Concluded (r : StartRequest) (last : Nat) (p : Protocol) (flash : Flash) : Prop :=
  Replies (fun frame => frame.cmd ≠ rspNack → frame.seq = last → OnTrial r p.toTransfer flash) p.tx

section Board

variable {r : StartRequest} {last bound : Nat} {known : Prop} {p p' : Protocol}
  {flash after : Flash} {seq : UInt16} {data : List UInt8}

theorem Announced.abort {t : Transfer} (h : Announced r t) : Announced r t.abort :=
  ⟨h.bounded.abort, fun hreceiving => absurd hreceiving t.abort_not_receiving⟩

theorem pollTail_transfer (p : Protocol) (nowMs : UInt32) (received : Bool) :
    (p.pollTail nowMs received).tx = p.tx ∧
      ((p.pollTail nowMs received).toTransfer = p.toTransfer ∨ p.state = .receiving ∧
        (p.pollTail nowMs received).toTransfer = p.toTransfer.abort) := by
  unfold Protocol.pollTail
  split
  · exact ⟨rfl, .inl rfl⟩
  split
  next hreceiving =>
    split
    · exact ⟨rfl, .inr ⟨hreceiving, rfl⟩⟩
    · exact ⟨rfl, .inl rfl⟩
  next => exact ⟨rfl, .inl rfl⟩

theorem Announced.pollTail (h : Announced r p.toTransfer) (nowMs : UInt32) (received : Bool) :
    Announced r (p.pollTail nowMs received).toTransfer := by
  rcases (pollTail_transfer p nowMs received).2 with hsame | ⟨-, habort⟩
  · exact hsame ▸ h
  · exact habort ▸ h.abort

theorem OnTrial.pollTail (h : OnTrial r p.toTransfer flash) (nowMs : UInt32) (received : Bool) :
    OnTrial r (p.pollTail nowMs received).toTransfer flash := by
  rcases (pollTail_transfer p nowMs received).2 with hsame | ⟨hreceiving, -⟩
  · exact hsame ▸ h
  · rw [h.state] at hreceiving
    cases hreceiving

/-- Nothing is asked of a NACK. -/
theorem nack_good {asked : Prop} (hother : OtaBoot.rspNack.toNat ≠ rspNack) : asked :=
  absurd rfl hother

theorem nack_short {err : UInt8} : [err].length ≤ 1024 := by
  rw [List.length_singleton]
  decide

theorem Gathering.steady : Steady (Gathering r last known bound) where
  receiver rx h := ⟨h.replies, h.known, h.counter⟩
  rejected h := ⟨h.replies, h.known, h.counter⟩
  refused seq h :=
    ⟨h.replies.snoc nack_short nack_good, h.known, h.counter⟩
  tail {p flash} nowMs received h := by
    refine ⟨?_, fun hknown => (h.known hknown).pollTail nowMs received, h.counter⟩
    rw [(pollTail_transfer p nowMs received).1]
    refine h.replies.mono fun frame hgood hother => ?_
    exact ⟨(hgood hother).1, (hgood hother).2.pollTail nowMs received⟩

theorem Concluded.steady : Steady (Concluded r last) where
  receiver rx h := h
  rejected h := h
  refused seq h := Replies.snoc h nack_short nack_good
  tail {p flash} nowMs received h := by
    rw [Concluded, (pollTail_transfer p nowMs received).1]
    refine Replies.mono h fun frame hgood hother hlast => ?_
    exact (hgood hother hlast).pollTail nowMs received

/-- A reply after which the announced transfer is still the one under way. -/
theorem Gathering.replied (h : Gathering r last known bound p flash) {bound' : Nat} {cmd : UInt8}
    (htx : p'.tx = p.tx ++ sendFrame cmd seq data) (hshort : data.length ≤ 1024)
    (hgood : cmd.toNat ≠ rspNack → seq.toNat ≠ last ∧ Announced r p'.toTransfer)
    (hkeeps : Announced r p.toTransfer → Announced r p'.toTransfer)
    (hcounter : counterAt after ≤ bound') : Gathering r last known bound' p' after := by
  refine ⟨?_, fun hknown => hkeeps (h.known hknown), hcounter⟩
  rw [htx]
  refine .snoc (h.replies.mono fun frame hold hother => ?_) hshort hgood
  exact ⟨(hold hother).1, hkeeps (hold hother).2⟩

/-- Before a frame arrives: the manager has nothing to send. -/
theorem Gathering.fresh (r : StartRequest) (last : Nat) (p : Protocol) (flash : Flash) :
    Gathering r last (Announced r p.toTransfer) (counterAt flash) { p with tx := [] } flash :=
  ⟨.nil, id, Nat.le_refl _⟩

/-! ### The three commands -/

/-- What a frame leads to, told from what becomes of its action and from its answer. -/
theorem triple_dispatch {pre : Flash → Prop} {post : Protocol → Flash → Prop} {cmd : UInt8}
    (hdispatch : ∀ flash, pre flash →
      Acts .calm flash p (p.toTransfer.action flash cmd seq data) (p.dispatch cmd seq data) ∧
      Answers .calm flash p cmd seq data (p.dispatch cmd seq data))
    (hpost : ∀ flash p' after, pre flash →
      ActionEffect (Climate.ReportsNoError (.calm : Climate Flash FlashCall)) flash p
        (p.toTransfer.action flash cmd seq data) after (some p') →
      Answer flash p cmd seq data p' after → post p' after) :
    Triple .calm pre (p.dispatch cmd seq data) post fun _ => True := by
  refine Triple.of_state fun flash hpre => ?_
  obtain ⟨hacts, hanswers⟩ := hdispatch flash hpre
  have hallowed := Action.allowed_calm flash p.toTransfer (p.toTransfer.action flash cmd seq data)
  refine ((hacts hallowed).and (hanswers hallowed)).conseq (fun _ h => h) ?_ fun _ _ => trivial
  rintro p' after ⟨heffect, hanswer⟩
  exact hpost flash p' after hpre heffect hanswer

/-- A transfer that is accepted is the one that was announced. -/
theorem Announced.started (t : Transfer) (seq : UInt16)
    (haccept : (StartRequest.ofBytes data).Acceptable flash) :
    Announced (StartRequest.ofBytes data) (t.started seq (freeSlot flash)
      (StartRequest.ofBytes data).size (StartRequest.ofBytes data).crc
      (StartRequest.ofBytes data).ver) := by
  obtain ⟨-, hsize, hslot⟩ := haccept
  have hle := UInt32.le_iff_toNat_le.mp (UInt32.not_lt.mp (not_or.mp hsize).2)
  exact ⟨⟨hle, Nat.zero_le _, rfl⟩, fun _ => ⟨rfl, rfl, rfl, hslot.symm⟩⟩

/-- Whatever becomes of a START_UPDATE, it writes the metadata once at most. -/
theorem Announced.start_effect {quiet : Prop}
    (h : ActionEffect quiet flash p (p.toTransfer.action flash OtaBoot.cmdStartUpdate seq data)
      after (some p')) :
    (Announced (StartRequest.ofBytes data) p.toTransfer →
      Announced (StartRequest.ofBytes data) p'.toTransfer) ∧
      counterAt after ≤ counterAt flash + 1 := by
  have hdecided := p.toTransfer.action_decided flash OtaBoot.cmdStartUpdate seq data
  generalize p.toTransfer.action flash OtaBoot.cmdStartUpdate seq data = a at h hdecided
  cases hdecided with
  | answer =>
      cases h with
      | performed htransfer => exact ⟨fun hold => htransfer ▸ hold, Nat.le_succ _⟩
      | failed hstopped => exact hstopped.elim
  | abort hcmd => exact absurd hcmd (by decide)
  | start hlen haccept =>
      cases h with
      | performed htransfer =>
          exact ⟨fun _ => htransfer ▸ .started p.toTransfer seq haccept,
            (completeImage_stopped _ _).counterAt_le⟩
      | failed hstopped _ htransfer =>
          exact ⟨fun hold => htransfer ▸ hold, WriteStopped.counterAt_le hstopped⟩

theorem Gathering.dispatch_start (hlast : last ≠ 0) (p : Protocol) :
    Triple .calm (Gathering (StartRequest.ofBytes data) last known bound p)
      (p.dispatch OtaBoot.cmdStartUpdate 0 data)
      (Gathering (StartRequest.ofBytes data) last known (bound + 1)) fun _ => True := by
  refine triple_dispatch (fun flash _ => ⟨dispatch_start_acts p 0 data,
    dispatch_start_answers p 0 data⟩) ?_
  intro flash p' after h heffect hanswer
  obtain ⟨hkeeps, hwrites⟩ := Announced.start_effect heffect
  have hcounter := hwrites.trans (Nat.add_le_add_right h.counter 1)
  cases hanswer with
  | performed htx hacks himage htransfer =>
      have hack : Answer flash p OtaBoot.cmdStartUpdate 0 data p' after :=
        .performed htx hacks himage htransfer
      obtain ⟨-, haccept, -, hstarted⟩ := hack.of_start_ack htx
      exact h.replied htx (by decide) (fun _ => ⟨hlast.symm, hstarted ▸ .started _ _ haccept⟩)
        hkeeps hcounter
  | refused htx => exact h.replied htx nack_short nack_good hkeeps hcounter
  | repeated _ hcmd | dropped _ hcmd | informed _ hcmd => exact absurd hcmd (by decide)

/-- Whatever becomes of a block, the transfer is the one that was announced, and the
metadata are not written. -/
theorem Announced.data_effect {quiet : Prop} (hannounced : Announced r p.toTransfer)
    (hlen : data.length < 65536)
    (h : ActionEffect quiet flash p (p.toTransfer.action flash OtaBoot.cmdData seq data) after
      (some p')) :
    Announced r p'.toTransfer ∧ counterAt after = counterAt flash := by
  have hb := hannounced.bounded
  have hjustified : (p.toTransfer.action flash OtaBoot.cmdData seq data).Justified flash
      p.toTransfer := Transfer.action_justified hb hlen
  have hbounded := h.bounded hb hjustified
  have hdecided := p.toTransfer.action_decided flash OtaBoot.cmdData seq data
  generalize p.toTransfer.action flash OtaBoot.cmdData seq data = a at h hdecided hjustified
  cases hdecided with
  | answer =>
      cases h with
      | performed htransfer => exact ⟨htransfer ▸ hannounced, rfl⟩
      | failed hstopped => exact hstopped.elim
  | abort =>
      cases h with
      | performed htransfer => exact ⟨htransfer ▸ hannounced.abort, rfl⟩
      | failed hstopped => exact hstopped.elim
  | store =>
      have hstays (hstopped : (Action.store seq data).Stopped flash p.toTransfer after) :
          counterAt after = counterAt flash :=
        (hstopped.changedWithin hb hjustified.2).counterAt
      cases h with
      | performed htransfer =>
          refine ⟨⟨hbounded, fun hreceiving => ?_⟩, ?_⟩
          · rw [htransfer] at hreceiving ⊢
            exact hannounced.fields hreceiving
          · rcases hjustified.stopped_image with hsame | hstopped
            · rw [hsame]
            · exact hstays hstopped
      | failed hstopped _ htransfer => exact ⟨htransfer ▸ hannounced.abort, hstays hstopped⟩

theorem Gathering.dispatch_data (hseq : seq.toNat ≠ last) (hlen : data.length ≤ 1024)
    (hknown : known) (p : Protocol) :
    Triple .calm (Gathering r last known bound p) (p.dispatch OtaBoot.cmdData seq data)
      (Gathering r last known bound) fun _ => True := by
  have hbounded {flash : Flash} (h : Gathering r last known bound p flash) : p.Bounded :=
    (h.known hknown).bounded
  refine triple_dispatch (fun flash h => ⟨dispatch_acts (hbounded h) _ seq data (by omega),
    dispatch_answers (hbounded h) _ seq data (by omega)⟩) ?_
  intro flash p' after h heffect hanswer
  have hannounced := h.known hknown
  obtain ⟨hannounced', hcounter⟩ := hannounced.data_effect (by omega) heffect
  have hbound := hcounter.trans_le h.counter
  cases hanswer with
  | performed htx | repeated htx =>
      exact h.replied htx (by decide) (fun _ => ⟨hseq, hannounced'⟩) (fun _ => hannounced') hbound
  | refused htx => exact h.replied htx nack_short nack_good (fun _ => hannounced') hbound
  | dropped _ hcmd | informed _ hcmd => exact absurd hcmd (by decide)

/-- The record that END_UPDATE writes. -/
theorem OnTrial.of_finish {t : Transfer} (hannounced : Announced r t)
    (hreceiving : t.state = .receiving) (hcounter : counterAt flash < 2 ^ 32 - 1) (seq : UInt16) :
    OnTrial r ((Action.finish seq).success flash t) ((Action.finish seq).image flash t) := by
  obtain ⟨hsize, hcrc, hver, hslot⟩ := hannounced.fields hreceiving
  have hsound := endRecord_sound flash t.targetSlot t.fwCrc32 t.fwVersion
    (UInt32.le_iff_toNat_le.mpr hannounced.bounded.size)
  refine ⟨rfl, t.targetSlot, _, hslot,
    ledgerAt_completeImage (counterOk_iff.mpr hcounter) hsound, ?_, ?_⟩
  · rw [endRecord_ledger]
    rfl
  · rw [endRecord_ledger, slot_install, hsize, hcrc, hver]

theorem Gathering.dispatch_end (hbound : bound < 2 ^ 32 - 1) (hknown : known) (p : Protocol) :
    Triple .calm (Gathering r last known bound p) (p.dispatch OtaBoot.cmdEndUpdate seq [])
      (Concluded r last) fun _ => True := by
  have hbounded {flash : Flash} (h : Gathering r last known bound p flash) : p.Bounded :=
    (h.known hknown).bounded
  refine triple_dispatch (fun flash h => ⟨dispatch_acts (hbounded h) _ seq [] (by decide),
    dispatch_answers (hbounded h) _ seq [] (by decide)⟩) ?_
  intro flash p' after h _ hanswer
  have hannounced := h.known hknown
  -- no ACK that was sent before has the number of END_UPDATE
  have hbefore : Replies (fun frame => frame.cmd ≠ rspNack → frame.seq = last →
      OnTrial r p'.toTransfer after) p.tx :=
    h.replies.mono fun frame hgood hother hlast => absurd hlast (hgood hother).1
  rw [Concluded]
  cases hanswer with
  | performed htx hacks himage htransfer =>
      have hjustified : (p.toTransfer.action flash OtaBoot.cmdEndUpdate seq []).Justified flash
          p.toTransfer := Transfer.action_justified hannounced.bounded (by decide)
      have hdecided := p.toTransfer.action_decided flash OtaBoot.cmdEndUpdate seq []
      generalize p.toTransfer.action flash OtaBoot.cmdEndUpdate seq [] = a at *
      cases hdecided with
      | answer | abort => cases hacks
      | finish =>
          rw [htx]
          refine hbefore.snoc (by decide) fun _ _ => ?_
          rw [htransfer, himage]
          exact .of_finish hannounced hjustified.1 (h.counter.trans_lt hbound) seq
  | refused htx =>
      rw [htx]
      exact hbefore.snoc nack_short nack_good
  | repeated _ hcmd | dropped _ hcmd | informed _ hcmd => exact absurd hcmd (by decide)

end Board

end OtaBoot.Host
