import OtaBoot.Host.Faults
import OtaBoot.Properties.EndToEnd
import OtaBoot.Sessions

/-!
# One fault in each exchange

A reply that is lost or damaged makes the host send the frame again, and the
board acknowledges it again. A frame that reaches the board damaged is answered
by a NACK, which the host takes for the board's last word.
-/

namespace OtaBoot.Host

open Storage Raising LittleEndian

/-! ## What the board answers -/

/-- So much of an image is stored, and the manager waits for the next block or
for the last one once more. -/
structure Held (s : Slot) (image : List UInt8) (sent : Nat) (seq : UInt16) (p : Protocol)
    (flash : Flash) : Prop where
  loading : Loading s image sent seq flash p.toTransfer
  crc : p.fwCrc32 = crc32Compute image
  last : p.lastSeq + 1 = seq
  timeout : p.timeoutMs = timeoutDataMs
  hunting : p.rx.state = .magic0

/-- The image is in its slot, and the manager has finished. -/
structure Finished (s : Slot) (image : List UInt8) (p : Protocol) (flash : Flash) : Prop where
  state : p.state = .complete
  content : flash.read s.addr.toNat image.length = image

/-- Writing these bytes leads to a state, and to a reply. -/
def Link.Answered (channel : Channel) (state : Protocol → Flash → Prop) (raw reply : List UInt8)
    (l : Link) : Prop :=
  state (l.write channel raw).proto (l.write channel raw).flash ∧
    (l.write channel raw).proto.tx = reply

section Answers

variable {channel : Channel} {l : Link} {s : Slot} {image block data : List UInt8} {sent : Nat}
  {seq : UInt16}

/-- The reply to an action that is performed. -/
theorem Link.answered_of_acts (state : Protocol → Flash → Prop) (hreliable : channel.Reliable)
    {a : Action} {cmd : UInt8} (hlen : data.length ≤ 1024)
    (hhunting : l.proto.rx.Hunting) (htimer : TimerSet l.proto)
    (hacts : ∀ q : Protocol, q.toTransfer = l.proto.toTransfer →
      Acts .calm l.flash q a (q.dispatch cmd seq data))
    (hready : a.Ready l.flash l.proto.toTransfer) (hacks : a.acks = some seq)
    (hstate : ∀ q : Protocol, q.toTransfer = a.success l.flash l.proto.toTransfer →
      q.timeoutMs = a.timeoutMs l.proto.timeoutMs → q.rx.state = .magic0 →
      TimerSet q ∧ state q (a.image l.flash l.proto.toTransfer))
    (hpost : ∀ q flash nowMs, state q flash → state { q with lastActivityMs := nowMs } flash) :
    l.Answered channel state (sendFrame cmd seq data) (sendFrame OtaBoot.rspAck seq []) := by
  refine Link.write_dispatch
    (fun q flash => state q flash ∧ q.tx = sendFrame OtaBoot.rspAck seq []) hreliable hlen hhunting
    htimer ?_ (fun q flash nowMs hq => ⟨hpost q flash nowMs hq.1, hq.2⟩)
  intro q htransfer htimeout htx hrx
  rw [← htransfer] at hready
  obtain ⟨q', w, hrun, hflash, hsuccess, hrx', hreply, htimeout'⟩ :=
    (hacts q htransfer).run_calm hready
  rw [htransfer] at hflash hsuccess
  obtain ⟨hset, hq'⟩ := hstate q' hsuccess (htimeout'.trans (congrArg a.timeoutMs htimeout))
    ((congrArg Receiver.state hrx').trans hrx)
  refine ⟨q', w, hrun, hset, hflash ▸ hq', ?_⟩
  rw [hreply seq hacks, htx]
  rfl

theorem Link.Answered.mono {state state' : Protocol → Flash → Prop} {raw reply : List UInt8}
    (h : l.Answered channel state raw reply) (himp : ∀ q flash, state q flash → state' q flash) :
    l.Answered channel state' raw reply :=
  ⟨himp _ _ h.1, h.2⟩

/-- START_UPDATE, in whatever state. -/
theorem answered_start (hreliable : channel.Reliable) (himage : Sendable image) (ver : UInt32)
    (hfree : freeSlot l.flash = s) (hhunting : l.proto.rx.Hunting)
    (htimer : TimerSet l.proto) :
    l.Answered channel (fun q flash => Held s image 0 1 q flash ∧
        flash = startImage l.flash (UInt32.ofNat image.length) (crc32Compute image) ver)
      (sendFrame OtaBoot.cmdStartUpdate 0
        (startPayload (UInt32.ofNat image.length) (crc32Compute image) ver s))
      (sendFrame OtaBoot.rspAck 0 []) := by
  have haction := action_start (t := l.proto.toTransfer) l.flash 0 (crc32Compute image) ver
    himage.size_ne_zero (UInt32.le_iff_toNat_le.mp himage.size_le)
  rw [hfree] at haction
  refine Link.answered_of_acts (a := .start 0 (UInt32.ofNat image.length) (crc32Compute image) ver)
    _ hreliable (by simp) hhunting htimer ?_ trivial rfl ?_
    (fun q flash nowMs hq => ⟨⟨hq.1.loading, hq.1.crc, hq.1.last, hq.1.timeout, hq.1.hunting⟩,
      hq.2⟩)
  · intro q htransfer
    have hacts : Acts .calm l.flash q _ _ := dispatch_start_acts q 0
      (startPayload (UInt32.ofNat image.length) (crc32Compute image) ver s)
    rw [htransfer, haction] at hacts
    exact hacts
  · intro q htransfer htimeout hrx
    have hloading := Loading.start (startImage l.flash (UInt32.ofNat image.length)
      (crc32Compute image) ver) l.proto.toTransfer 0 s image (crc32Compute image) ver
    have hstarted : q.toTransfer = l.proto.toTransfer.started 0 s (UInt32.ofNat image.length)
        (crc32Compute image) ver := hfree ▸ htransfer
    refine ⟨fun _ => htimeout, ⟨hstarted ▸ hloading, ?_, ?_, htimeout, hrx⟩, ?_⟩
    · exact congrArg Transfer.fwCrc32 hstarted
    · exact congrArg (fun t => t.lastSeq + 1) hstarted
    · rfl

/-- The slot that START_UPDATE has described is still the one that is free. -/
theorem answered_start_free (hreliable : channel.Reliable) (himage : Sendable image) (ver : UInt32)
    (hfree : freeSlot l.flash = s) (hhunting : l.proto.rx.Hunting)
    (htimer : TimerSet l.proto) :
    l.Answered channel (fun q flash => Held s image 0 1 q flash ∧ freeSlot flash = s)
      (sendFrame OtaBoot.cmdStartUpdate 0
        (startPayload (UInt32.ofNat image.length) (crc32Compute image) ver s))
      (sendFrame OtaBoot.rspAck 0 []) := by
  refine (answered_start hreliable himage ver hfree hhunting htimer).mono ?_
  rintro q flash ⟨hheld, rfl⟩
  exact ⟨hheld, (freeSlot_startImage _ ver himage.size_le).trans hfree⟩

/-- The next block. -/
theorem Held.answered_block (h : Held s image sent seq l.proto l.flash)
    (hreliable : channel.Reliable) (himage : Sendable image)
    (hblock : Underway.Next image sent block) (hshort : block.length ≤ 256) :
    l.Answered channel (Held s image (sent + block.length) (seq + 1))
      (sendFrame OtaBoot.cmdData seq block) (sendFrame OtaBoot.rspAck seq []) := by
  have haction := h.loading.action_data himage hblock
  refine Link.answered_of_acts (a := .store seq block) _ hreliable (by omega) (.inl h.hunting)
    (fun _ => h.timeout) ?_ (h.loading.ready himage hblock) rfl ?_
    (fun q flash nowMs hq => ⟨hq.loading, hq.crc, hq.last, hq.timeout, hq.hunting⟩)
  · intro q htransfer
    have hbounded : q.Bounded := htransfer ▸ h.loading.bounded himage
    have hacts : Acts .calm l.flash q _ _ := dispatch_acts hbounded OtaBoot.cmdData seq block
      (by omega)
    rw [htransfer, haction] at hacts
    exact hacts
  · intro q htransfer htimeout hrx
    have hstored := h.loading.store himage hblock
    refine ⟨fun _ => htimeout.trans h.timeout, htransfer ▸ hstored, ?_, ?_,
      htimeout.trans h.timeout, hrx⟩
    · exact (congrArg Transfer.fwCrc32 htransfer).trans h.crc
    · exact congrArg (fun t => t.lastSeq + 1) htransfer

/-- The last block once more. -/
theorem Held.answered_again (h : Held s image sent (seq + 1) l.proto l.flash)
    (hreliable : channel.Reliable) (hlen : data.length ≤ 1024) :
    l.Answered channel (Held s image sent (seq + 1)) (sendFrame OtaBoot.cmdData seq data)
      (sendFrame OtaBoot.rspAck seq []) := by
  have hlast : seq = l.proto.lastSeq := by
    have hsucc := h.last
    rw [UInt16.add_left_inj] at hsucc
    exact hsucc.symm
  refine Link.write_dispatch (fun q flash => Held s image sent (seq + 1) q flash ∧
    q.tx = sendFrame OtaBoot.rspAck seq []) hreliable hlen (.inl h.hunting) (fun _ => h.timeout) ?_
    (fun q flash nowMs hq =>
      ⟨⟨hq.1.loading, hq.1.crc, hq.1.last, hq.1.timeout, hq.1.hunting⟩, hq.2⟩)
  intro q htransfer htimeout htx hrx
  have hreceiving : q.state = .receiving :=
    (congrArg Transfer.state htransfer).trans h.loading.state
  have hsame : seq = q.lastSeq := hlast.trans (congrArg Transfer.lastSeq htransfer).symm
  have hdispatch : q.dispatch OtaBoot.cmdData seq data =
      pure (({ q with cntFramesOk := q.cntFramesOk + 1 } : Protocol).sendAck seq) := by
    change (if q.state ≠ .receiving then _ else if seq = q.lastSeq then _ else _) = _
    rw [if_neg (not_not.mpr hreceiving), if_pos hsame]
  rw [hdispatch]
  have htimeout' := htimeout.trans h.timeout
  refine ⟨_, _, rfl, fun _ => htimeout', ⟨htransfer ▸ h.loading, ?_, ?_, htimeout', hrx⟩, ?_⟩
  · exact (congrArg Transfer.fwCrc32 htransfer).trans h.crc
  · exact (congrArg (fun t => t.lastSeq + 1) htransfer).trans h.last
  · exact congrArg (· ++ sendFrame OtaBoot.rspAck seq []) htx

/-- END_UPDATE, when all is stored. -/
theorem Held.answered_end (h : Held s image image.length seq l.proto l.flash)
    (hreliable : channel.Reliable) (himage : Sendable image) (seq' : UInt16) :
    l.Answered channel (Finished s image) (sendFrame OtaBoot.cmdEndUpdate seq' [])
      (sendFrame OtaBoot.rspAck seq' []) := by
  have haction := h.loading.action_end himage h.crc seq'
  refine Link.answered_of_acts (a := .finish seq') _ hreliable (by simp) (.inl h.hunting)
    (fun _ => h.timeout) ?_ trivial rfl ?_ (fun q flash nowMs hq => ⟨hq.state, hq.content⟩)
  · intro q htransfer
    have hbounded : q.Bounded := htransfer ▸ h.loading.bounded himage
    have hacts : Acts .calm l.flash q _ _ := dispatch_acts hbounded OtaBoot.cmdEndUpdate seq' []
      (by simp)
    rw [htransfer, haction] at hacts
    exact hacts
  · intro q htransfer htimeout hrx
    have hcomplete : q.state = .complete := congrArg Transfer.state htransfer
    refine ⟨fun hreceiving => ?_, hcomplete, ?_⟩
    · rw [hcomplete] at hreceiving
      cases hreceiving
    · have hbounds := s.addr_bounds
      have hfits := himage.fits
      have hstopped := completeImage_stopped l.flash (Protocol.endRecord l.flash
        l.proto.targetSlot l.proto.fwSize l.proto.fwCrc32 l.proto.fwVersion)
      refine (hstopped.agreeOn (by omega)).read_eq.trans ?_
      rw [h.loading.content, List.take_length]

/-- A damaged frame. -/
theorem Damaged.answered {raw arrived : List UInt8} (h : Damaged raw arrived)
    (hreliable : channel.Reliable) (hhunting : l.proto.rx.Hunting)
    (htimer : TimerSet l.proto) :
    ∃ seq, (l.write channel arrived).proto.tx = sendFrame OtaBoot.rspNack seq [OtaBoot.errCrc] := by
  obtain ⟨front, last, rx, rx', seq, hframe, habsorbs, hlast, -⟩ := h.feed hhunting
  refine ⟨seq, ?_⟩
  refine Link.write_feed (fun q _ => q.tx = sendFrame OtaBoot.rspNack seq [OtaBoot.errCrc])
    hreliable hframe habsorbs htimer ?_ (fun q flash nowMs hq => hq)
  intro nowMs
  simp only [Protocol.feed, hlast, Protocol.handle]
  exact ⟨_, _, rfl, htimer, rfl⟩

end Answers

/-! ## Exchanges -/

/-- The frame reaches the board damaged the first time it is sent. -/
def FaultSchedule.Damages (faults : FaultSchedule) (raw : List UInt8) : Prop :=
  ∃ arrived, faults raw 0 = some (.damaged arrived)

section Exchanges

variable {channel : Channel} {faults : FaultSchedule} {l : Link} {cmd : UInt8} {seq : UInt16}
  {data : List UInt8} {state : Protocol → Flash → Prop}

/-- Without a fault a frame is exchanged for its reply. -/
theorem returns_exchange_intact (attempts : Nat) (hlen : data.length ≤ 1024)
    (hinbox : l.inbox = [])
    (hintact : faults (sendFrame cmd seq data) (l.timesWritten (sendFrame cmd seq data)) = none)
    (hanswered : l.Answered channel state (sendFrame cmd seq data)
      (sendFrame OtaBoot.rspAck seq [])) :
    Returns ((channel.faultyWire faults).exchange ⟨cmd.toNat, seq.toNat, data⟩ (attempts + 1)) l
      ⟨rspAck, seq.toNat, []⟩ { l.write channel (sendFrame cmd seq data) with inbox := [] } := by
  have hwrite : l.transmit channel faults (sendFrame cmd seq data) =
      l.write channel (sendFrame cmd seq data) := by
    rw [Link.transmit, hintact]
  have hreply : (l.write channel (sendFrame cmd seq data)).inbox =
      sendFrame OtaBoot.rspAck seq [] ++ [] := by
    rw [Link.inbox_write, hinbox, hanswered.2, List.nil_append, List.append_nil]
  have hreceive : Returns (channel.faultyWire faults).receive
      (l.write channel (sendFrame cmd seq data)) _ _ :=
    Wire.returns_receive (by decide : [].length ≤ 1024) hreply
  refine Wire.returns_exchange attempts hlen ?_
  change Returns _ (l.transmit channel faults (sendFrame cmd seq data)) _ _
  rw [hwrite]
  exact hreceive

/-- At most one fault, and not of the frame: it is exchanged for its ACK. -/
theorem returns_exchange_faulty (seq : UInt16) (hfaults : faults.OneEach)
    (hlen : data.length ≤ 1024) (hinbox : l.inbox = [])
    (hfirst : l.timesWritten (sendFrame cmd seq data) = 0)
    (hspared : ¬ faults.Damages (sendFrame cmd seq data))
    (hanswered : l.Answered channel state (sendFrame cmd seq data)
      (sendFrame OtaBoot.rspAck seq []))
    (hagain : ∀ l' : Link, state l'.proto l'.flash → l'.Answered channel state
      (sendFrame cmd seq data) (sendFrame OtaBoot.rspAck seq [])) :
    ∃ l', Returns ((channel.faultyWire faults).exchange ⟨cmd.toNat, seq.toNat, data⟩ 3) l
        ⟨rspAck, seq.toNat, []⟩ l' ∧ state l'.proto l'.flash ∧ l'.inbox = [] ∧
      ∀ entry ∈ l'.log, entry ∈ l.log ∨ entry.1 = sendFrame cmd seq data := by
  set raw := sendFrame cmd seq data with hraw
  have hlog (l' : Link) (hold : ∀ entry ∈ l'.log, entry ∈ l.log ∨ entry.1 = raw) :
      ∀ entry ∈ (l'.write channel raw).log, entry ∈ l.log ∨ entry.1 = raw := by
    intro entry hentry
    rw [Link.log_write, List.mem_append, List.mem_singleton] at hentry
    rcases hentry with hbefore | rfl
    · exact hold entry hbefore
    · exact .inr rfl
  have hlog₁ := hlog l fun _ => .inl
  cases hfault : faults raw 0 with
  | none =>
      have hexchange := returns_exchange_intact 2 hlen hinbox (hfirst ▸ hfault) hanswered
      exact ⟨_, hexchange, hanswered.1, rfl, hlog₁⟩
  | some fault =>
      -- the second transmission is spared, and the board has acted on the first
      let l₁ : Link := { l.write channel raw with inbox := [] }
      have hsecond : faults raw (l₁.timesWritten raw) = none := by
        have hcount : l₁.timesWritten raw = 1 := by
          change (l.log ++ [(raw, _)]).countP _ = 1
          rw [List.countP_append, ← Link.timesWritten, hfirst]
          simp
        rw [hcount]
        by_contra hsome
        have hone := hfaults.once raw 0 1 (by rw [hfault]; rfl)
          (Option.isSome_iff_ne_none.mpr hsome)
        cases hone
      have hanswered₁ := hagain l₁ hanswered.1
      have hexchange := returns_exchange_intact 1 hlen (rfl : l₁.inbox = []) hsecond hanswered₁
      have hlost : l.transmit channel faults raw = { l.write channel raw with inbox := l.inbox } ∨
          ∃ arrived, Damaged (sendFrame OtaBoot.rspAck seq []) arrived ∧
            l.transmit channel faults raw = { l.write channel raw with inbox := arrived } := by
        rw [Link.transmit, hfirst, hfault]
        cases fault with
        | damaged arrived => exact absurd ⟨arrived, hfault⟩ hspared
        | replyLost => exact .inl rfl
        | replyDamaged arrived =>
            refine .inr ⟨arrived (sendFrame OtaBoot.rspAck seq []), ?_, ?_⟩
            · exact hfaults.replyDamaged raw 0 arrived hfault _ seq [] (by decide)
            · simp only [hanswered.2, hinbox, List.nil_append]
      refine ⟨{ l₁.write channel raw with inbox := [] }, ?_, hanswered₁.1, rfl, hlog l₁ hlog₁⟩
      rcases hlost with hlost | ⟨arrived, hdamaged, hlost⟩
      · have hnone : afterMagic [] (l.transmit channel faults raw).inbox = none := by
          rw [hlost, hinbox]
          rfl
        have hreceive : Raises (channel.faultyWire faults).receive _ .timeout _ :=
          Wire.raises_receive hnone
        refine Wire.returns_exchange_again hlen (.inl rfl) hreceive ?_
        change Returns _ { l.transmit channel faults raw with inbox := [] } _ _
        rw [hlost]
        exact hexchange
      · have hreceive : Raises (channel.faultyWire faults).receive
            (l.transmit channel faults raw) .badCrc
            { l.transmit channel faults raw with inbox := [] } := by
          refine hdamaged.raises_receive ?_
          change (l.transmit channel faults raw).inbox = arrived ++ []
          rw [hlost, List.append_nil]
        refine Wire.returns_exchange_again hlen (.inr (.inl rfl)) hreceive ?_
        change Returns _ { l.transmit channel faults raw with inbox := [] } _ _
        rw [hlost]
        exact hexchange

/-- A damaged frame is exchanged for a NACK. -/
theorem returns_exchange_damaged (seq : UInt16) (hfaults : faults.OneEach)
    (hreliable : channel.Reliable) (attempts : Nat) (hlen : data.length ≤ 1024)
    (hinbox : l.inbox = []) (hhunting : l.proto.rx.Hunting) (htimer : TimerSet l.proto)
    (hfirst : l.timesWritten (sendFrame cmd seq data) = 0)
    (hdamages : faults.Damages (sendFrame cmd seq data)) :
    ∃ rep l', Returns ((channel.faultyWire faults).exchange ⟨cmd.toNat, seq.toNat, data⟩
      (attempts + 1)) l rep l' ∧ rep.cmd = rspNack := by
  set raw := sendFrame cmd seq data with hraw
  obtain ⟨arrived, hfault⟩ := hdamages
  obtain ⟨seq', hreply⟩ := (hfaults.damaged raw 0 arrived hfault).answered hreliable hhunting htimer
  have hinbox' : (l.transmit channel faults raw).inbox =
      sendFrame OtaBoot.rspNack seq' [OtaBoot.errCrc] ++ [] := by
    rw [Link.transmit, hfirst, hfault]
    simp only [Link.inbox_write, hinbox, hreply, List.nil_append, List.append_nil]
  have hreceive : Returns (channel.faultyWire faults).receive (l.transmit channel faults raw) _ _ :=
    Wire.returns_receive (by decide : [OtaBoot.errCrc].length ≤ 1024) hinbox'
  exact ⟨_, _, Wire.returns_exchange attempts hlen hreceive, rfl⟩

end Exchanges

/-! ## Transfers -/

/-- The DATA frames of blocks that are numbered from `seq` on. -/
def dataFrames (seq : UInt16) : List (List UInt8) → List (List UInt8)
  | [] => []
  | block :: blocks => sendFrame OtaBoot.cmdData seq block :: dataFrames (seq + 1) blocks

/-- The START_UPDATE frame and the DATA frames of an image. -/
def transferFrames (image : List UInt8) (s : Slot) (ver : UInt32) : List (List UInt8) :=
  sendFrame OtaBoot.cmdStartUpdate 0
      (startPayload (UInt32.ofNat image.length) (crc32Compute image) ver s) ::
    dataFrames 1 (splitFirmware image)

/-- So much of an image was sent, in frames with smaller numbers. -/
structure Transmitting (s : Slot) (image : List UInt8) (sent : Nat) (seq : UInt16) (l : Link) :
    Prop where
  held : Held s image sent seq l.proto l.flash
  inbox : l.inbox = []
  earlier : ∀ entry ∈ l.log, ∃ cmd seq' data, entry.1 = sendFrame cmd seq' data ∧
    data.length ≤ 1024 ∧ seq'.toNat < seq.toNat

section Transfers

variable {channel : Channel} {faults : FaultSchedule} {l : Link} {s : Slot} {image : List UInt8}
  {sent : Nat} {seq : UInt16}

/-- The frame with the next number was not written before. -/
theorem Transmitting.first (h : Transmitting s image sent seq l) (cmd : UInt8)
    {data : List UInt8} (hlen : data.length ≤ 1024) :
    l.timesWritten (sendFrame cmd seq data) = 0 := by
  refine List.countP_eq_zero.mpr ?_
  intro entry hentry hsame
  obtain ⟨cmd', seq', data', hframe, hlen', hbefore⟩ := h.earlier entry hentry
  rw [decide_eq_true_eq, hframe] at hsame
  obtain ⟨-, rfl, -⟩ := sendFrame_inj hlen' hlen hsame
  exact Nat.lt_irrefl _ hbefore

/-- Frames that are written next have the next number. -/
theorem Transmitting.next {l' : Link} {sent' : Nat} {cmd : UInt8} {data : List UInt8}
    (h : Transmitting s image sent seq l) (hlen : data.length ≤ 1024)
    (hseq : seq.toNat + 1 < 65536) (hheld : Held s image sent' (seq + 1) l'.proto l'.flash)
    (hinbox : l'.inbox = [])
    (hlog : ∀ entry ∈ l'.log, entry ∈ l.log ∨ entry.1 = sendFrame cmd seq data) :
    Transmitting s image sent' (seq + 1) l' := by
  refine ⟨hheld, hinbox, ?_⟩
  intro entry hentry
  rw [toNat_seq_succ hseq]
  rcases hlog entry hentry with hold | hnew
  · obtain ⟨cmd', seq', data', hframe, hlen', hbefore⟩ := h.earlier entry hold
    exact ⟨cmd', seq', data', hframe, hlen', Nat.lt_succ_of_lt hbefore⟩
  · exact ⟨cmd, seq, data, hnew, hlen, Nat.lt_succ_self _⟩

/-- The blocks that are left, when no frame is damaged. -/
theorem Transmitting.returns_sendBlocks (h : Transmitting s image sent seq l)
    (hfaults : faults.OneEach) (hreliable : channel.Reliable) (himage : Sendable image)
    (hsent : sent % 256 = 0 ∨ sent = image.length)
    (hseq : seq.toNat + (splitFirmware (image.drop sent)).length < 65536)
    (hspared : ∀ raw ∈ dataFrames seq (splitFirmware (image.drop sent)), ¬ faults.Damages raw) :
    ∃ l' last, Returns ((channel.faultyWire faults).sendBlocks seq.toNat
        (splitFirmware (image.drop sent))) l (some last.toNat) l' ∧
      Transmitting s image image.length last l' := by
  induction hcount : (splitFirmware (image.drop sent)).length generalizing sent seq l with
  | zero =>
      obtain rfl := sent_of_no_block h.held.loading.fits (List.length_eq_zero_iff.mp hcount)
      rw [List.length_eq_zero_iff.mp hcount]
      exact ⟨l, seq, .pure _ _, h⟩
  | succ count ih =>
      obtain ⟨block, hsplit, hblock, hshort, hnext⟩ :=
        next_block himage h.held.loading.aligned hsent (by omega)
      rw [hsplit] at hcount hseq hspared ⊢
      rw [List.length_cons] at hcount hseq
      obtain ⟨hthis, hrest⟩ := List.forall_mem_cons.mp hspared
      obtain ⟨l₁, hexchange, hheld, hinbox, hlog⟩ := returns_exchange_faulty seq hfaults (by omega)
        h.inbox (h.first _ (by omega)) hthis
        (h.held.answered_block hreliable himage hblock hshort)
        (fun l' hl' => hl'.answered_again hreliable (by omega))
      have hsucc := toNat_seq_succ (by omega : seq.toNat + 1 < 65536)
      have h₁ := h.next (by omega) (by omega) hheld hinbox hlog
      obtain ⟨l₂, last, hblocks, h₂⟩ := ih h₁ hnext (by omega) hrest (by omega)
      refine ⟨l₂, last, ?_, h₂⟩
      rw [Wire.sendBlocks]
      refine .bind (.tryCatch (.bind hexchange (.pure _ _))) ?_
      rw [hsucc] at hblocks
      exact hblocks

/-- The blocks that are left, when a frame is damaged. -/
theorem Transmitting.returns_sendBlocks_damaged (h : Transmitting s image sent seq l)
    (hfaults : faults.OneEach) (hreliable : channel.Reliable) (himage : Sendable image)
    (hsent : sent % 256 = 0 ∨ sent = image.length)
    (hseq : seq.toNat + (splitFirmware (image.drop sent)).length < 65536)
    (hdamages : ∃ raw ∈ dataFrames seq (splitFirmware (image.drop sent)), faults.Damages raw) :
    ∃ l', Returns ((channel.faultyWire faults).sendBlocks seq.toNat
      (splitFirmware (image.drop sent))) l none l' := by
  induction hcount : (splitFirmware (image.drop sent)).length generalizing sent seq l with
  | zero =>
      rw [List.length_eq_zero_iff.mp hcount] at hdamages
      obtain ⟨raw, hmem, -⟩ := hdamages
      cases hmem
  | succ count ih =>
      obtain ⟨block, hsplit, hblock, hshort, hnext⟩ :=
        next_block himage h.held.loading.aligned hsent (by omega)
      rw [hsplit] at hcount hseq hdamages ⊢
      rw [List.length_cons] at hcount hseq
      have hfirst := h.first OtaBoot.cmdData (by omega : block.length ≤ 1024)
      rw [Wire.sendBlocks]
      by_cases hthis : faults.Damages (sendFrame OtaBoot.cmdData seq block)
      · obtain ⟨rep, l₁, hexchange, hnack⟩ := returns_exchange_damaged seq hfaults hreliable 2
          (by omega) h.inbox (.inl h.held.hunting) (fun _ => h.held.timeout) hfirst hthis
        refine ⟨l₁, .bind (.tryCatch (.bind hexchange (.pure _ _))) ?_⟩
        simp only [hnack, if_true]
        exact .pure _ _
      · obtain ⟨l₁, hexchange, hheld, hinbox, hlog⟩ := returns_exchange_faulty seq hfaults
          (by omega) h.inbox hfirst hthis (h.held.answered_block hreliable himage hblock hshort)
          (fun l' hl' => hl'.answered_again hreliable (by omega))
        have hsucc := toNat_seq_succ (by omega : seq.toNat + 1 < 65536)
        have h₁ := h.next (by omega) (by omega) hheld hinbox hlog
        obtain ⟨raw, hmem, hraw⟩ := hdamages
        obtain ⟨l₂, hblocks⟩ := ih h₁ hnext (by omega)
          ⟨raw, (List.mem_cons.mp hmem).resolve_left (fun heq => hthis (heq ▸ hraw)), hraw⟩
          (by omega)
        refine ⟨l₂, .bind (.tryCatch (.bind hexchange (.pure _ _))) ?_⟩
        rw [hsucc] at hblocks
        exact hblocks

/-- END_UPDATE is exchanged without a fault. -/
theorem Transmitting.returns_end (h : Transmitting s image image.length seq l)
    (hfaults : faults.OneEach) (hreliable : channel.Reliable) (himage : Sendable image) :
    ∃ rep l', Returns ((channel.faultyWire faults).exchange ⟨cmdEndUpdate, seq.toNat, []⟩ 1) l
      rep l' ∧ rep.cmd = rspAck ∧ Finished s image l'.proto l'.flash := by
  have hintact (n : Nat) : faults (sendFrame OtaBoot.cmdEndUpdate seq []) n = none := by
    by_contra hsome
    obtain ⟨cmd, seq', data, hframe, hcmd⟩ :=
      hfaults.exchanges _ n (Option.isSome_iff_ne_none.mpr hsome)
    have hlen := congrArg List.length hframe
    rw [Receiver.length_sendFrame, Receiver.length_sendFrame, List.length_nil] at hlen
    obtain ⟨rfl, -, -⟩ := sendFrame_inj (by decide) (by omega) hframe
    rcases hcmd with hcmd | hcmd <;> cases hcmd
  have hanswered := h.held.answered_end hreliable himage seq
  have hexchange := returns_exchange_intact 0 (by decide) h.inbox (hintact _) hanswered
  exact ⟨_, _, hexchange, rfl, hanswered.1⟩

variable {flash : Flash} {p : Protocol} (ver : UInt32)

/-- The announcement, with a reply that may be lost or damaged. -/
theorem returns_start_faulty (hfaults : faults.OneEach) (hreliable : channel.Reliable)
    (himage : Sendable image) (hhunting : p.rx.Hunting) (htimer : TimerSet p)
    (hspared : ¬ faults.Damages (sendFrame OtaBoot.cmdStartUpdate 0
      (startPayload (UInt32.ofNat image.length) (crc32Compute image) ver (freeSlot flash)))) :
    ∃ l', Returns ((channel.faultyWire faults).exchange ⟨cmdStartUpdate, 0,
        startPayload (UInt32.ofNat image.length) (crc32Compute image) ver (freeSlot flash)⟩ 3)
        ⟨flash, p, [], []⟩ ⟨rspAck, 0, []⟩ l' ∧
      Transmitting (freeSlot flash) image 0 1 l' := by
  obtain ⟨l', hexchange, ⟨hheld, -⟩, hinbox, hlog⟩ := returns_exchange_faulty 0
    (l := ⟨flash, p, [], []⟩) hfaults (by simp) rfl rfl hspared
    (answered_start_free hreliable himage ver rfl hhunting htimer)
    (fun l' hl' => answered_start_free hreliable himage ver hl'.2 (.inl hl'.1.hunting)
      (fun _ => hl'.1.timeout))
  refine ⟨l', hexchange, hheld, hinbox, ?_⟩
  intro entry hentry
  rcases hlog entry hentry with hold | hnew
  · cases hold
  · exact ⟨_, 0, _, hnew, by simp, by decide⟩

end Transfers

section Outcomes

variable {channel : Channel} {faults : FaultSchedule} {flash : Flash} {p : Protocol}
  {image : List UInt8} {version : Nat}

theorem length_splitFirmware_le (himage : Sendable image) :
    (splitFirmware image).length ≤ 1920 := by
  have hfits := himage.fits
  rw [length_splitFirmware]
  omega

/-- An update during which no frame is damaged succeeds. -/
theorem sendFirmware_of_spared (hfaults : faults.OneEach) (hreliable : channel.Reliable)
    (himage : Sendable image) (hhunting : p.rx.Hunting) (htimer : TimerSet p)
    (hversion : version < 2 ^ 32)
    (hspared : ∀ raw ∈ transferFrames image (freeSlot flash) (UInt32.ofNat version),
      ¬ faults.Damages raw) :
    ∃ l', Returns ((channel.faultyWire faults).sendFirmware image (freeSlot flash).toByte.toNat
        version) ⟨flash, p, [], []⟩ true l' ∧
      Finished (freeSlot flash) image l'.proto l'.flash := by
  have hcount := length_splitFirmware_le himage
  obtain ⟨hfirst, hrest⟩ := List.forall_mem_cons.mp hspared
  obtain ⟨l₁, hstart, h₁⟩ := returns_start_faulty (UInt32.ofNat version) hfaults hreliable himage
    hhunting htimer hfirst
  obtain ⟨l₂, last, hblocks, h₂⟩ := h₁.returns_sendBlocks hfaults hreliable himage (.inl rfl)
    (by rw [List.drop_zero]; change 1 + _ < _; omega) (by rwa [List.drop_zero])
  obtain ⟨rep, l₃, hend, hack, hfinished⟩ := h₂.returns_end hfaults hreliable himage
  rw [List.drop_zero] at hblocks
  have hnotNack : ¬ rspAck = rspNack := by decide
  refine ⟨l₃, ?_, hfinished⟩
  refine .bind (.ofExcept (pack_announcement himage _ hversion) _) (.bind hstart ?_)
  rw [if_neg hnotNack]
  refine .bind hblocks (.bind (.tryCatch hend) ?_)
  rw [hack, if_neg hnotNack]
  exact .pure _ _

/-- An update during which a frame is damaged fails. -/
theorem sendFirmware_of_damaged (hfaults : faults.OneEach) (hreliable : channel.Reliable)
    (himage : Sendable image) (hhunting : p.rx.Hunting) (htimer : TimerSet p)
    (hversion : version < 2 ^ 32)
    (hdamages : ∃ raw ∈ transferFrames image (freeSlot flash) (UInt32.ofNat version),
      faults.Damages raw) :
    ∃ l', Returns ((channel.faultyWire faults).sendFirmware image (freeSlot flash).toByte.toNat
      version) ⟨flash, p, [], []⟩ false l' := by
  have hcount := length_splitFirmware_le himage
  have hpack := pack_announcement himage (freeSlot flash) hversion
  by_cases hfirst : faults.Damages (sendFrame OtaBoot.cmdStartUpdate 0
    (startPayload (UInt32.ofNat image.length) (crc32Compute image) (UInt32.ofNat version)
      (freeSlot flash)))
  · obtain ⟨rep, l₁, hexchange, hnack⟩ := returns_exchange_damaged 0
      (l := ⟨flash, p, [], []⟩) hfaults hreliable 2 (by simp) rfl hhunting htimer rfl hfirst
    refine ⟨l₁, .bind (.ofExcept hpack _) (.bind hexchange ?_)⟩
    rw [if_pos hnack]
    exact .pure _ _
  · obtain ⟨l₁, hstart, h₁⟩ := returns_start_faulty (UInt32.ofNat version) hfaults hreliable himage
      hhunting htimer hfirst
    obtain ⟨raw, hmem, hraw⟩ := hdamages
    have hdata := (List.mem_cons.mp hmem).resolve_left (fun heq => hfirst (heq ▸ hraw))
    obtain ⟨l₂, hblocks⟩ := h₁.returns_sendBlocks_damaged hfaults hreliable himage (.inl rfl)
      (by rw [List.drop_zero]; change 1 + _ < _; omega)
      ⟨raw, by rwa [List.drop_zero], hraw⟩
    rw [List.drop_zero] at hblocks
    have hnotNack : ¬ rspAck = rspNack := by decide
    refine ⟨l₂, .bind (.ofExcept hpack _) (.bind hstart ?_)⟩
    rw [if_neg hnotNack]
    exact .bind hblocks (.pure _ _)

end Outcomes

/-! ## The result -/

/-- From any state that the manager reaches between two frames, and with at most
one fault in each exchange of a START_UPDATE or a DATA frame, an update succeeds
exactly when no such frame reaches the board damaged. -/
theorem update_survives_iff {channel : Channel} (hreliable : channel.Reliable)
    {flash₀ flash : Flash} {past : List OtaBoot.Poll} {p : Protocol}
    (hpast : session flash₀ protocolInit past = some (flash, p)) (hhunting : p.rx.Hunting)
    {faults : FaultSchedule} (hfaults : faults.OneEach) (firmware : List UInt8)
    (hpos : firmware ≠ []) (hsize : firmware.length ≤ slotSize.toNat) (version : Nat)
    (hversion : version < 2 ^ 32) :
    (∃ l', Returns ((channel.faultyWire faults).sendFirmware (padded firmware)
        (freeSlot flash).toByte.toNat version) ⟨flash, p, [], []⟩ true l' ∧
      l'.proto.state = .complete ∧
      l'.flash.read (freeSlot flash).addr.toNat (padded firmware).length = padded firmware) ↔
    ∀ raw ∈ transferFrames (padded firmware) (freeSlot flash) (UInt32.ofNat version),
      ¬ faults.Damages raw := by
  have himage : Sendable (padded firmware) := sendable_padded hpos hsize
  have htimer : TimerSet p := session_timed .init hpast
  constructor
  · rintro ⟨l', htrue, -⟩ raw hmem hdamages
    obtain ⟨l'', hfalse⟩ := sendFirmware_of_damaged hfaults hreliable himage hhunting htimer
      hversion ⟨raw, hmem, hdamages⟩
    have hboth := htrue.symm.trans hfalse
    cases hboth
  · intro hspared
    obtain ⟨l', htrue, hfinished⟩ := sendFirmware_of_spared hfaults hreliable himage hhunting
      htimer hversion hspared
    exact ⟨l', htrue, hfinished.state, hfinished.content⟩

/-! ### The announcement of eight bytes -/

/-- One fault, of the first transmission of a frame. -/
def FaultSchedule.single (raw : List UInt8) (fault : LineFault) : FaultSchedule :=
  fun raw' n => if raw' = raw ∧ n = 0 then some fault else none

/-- What is announced first. -/
def eightBytes : List UInt8 := [1, 2, 3, 4, 5, 6, 7, 8]

theorem sendable_eightBytes : Sendable eightBytes := ⟨by decide, by decide, by decide⟩

def announcement : List UInt8 :=
  startPayload (UInt32.ofNat eightBytes.length) (crc32Compute eightBytes) (UInt32.ofNat 7) .b

/-- The START_UPDATE frame with another CRC. -/
def badAnnouncement : List UInt8 :=
  magic ++ (Receiver.covered OtaBoot.cmdStartUpdate 0 announcement ++
    bytes32 (crc32Compute (Receiver.covered OtaBoot.cmdStartUpdate 0 announcement) + 1))

section Announcement

variable {fault : LineFault}

theorem isSome_single {raw raw' : List UInt8} {n : Nat}
    (h : (FaultSchedule.single raw fault raw' n).isSome) : raw' = raw ∧ n = 0 := by
  unfold FaultSchedule.single at h
  split at h
  next hthis => exact hthis
  next => cases h

theorem single_announcement_oneEach
    (hdamaged : ∀ arrived, fault = .damaged arrived →
      Damaged (sendFrame OtaBoot.cmdStartUpdate 0 announcement) arrived)
    (hreply : ∀ arrived, fault ≠ .replyDamaged arrived) :
    (FaultSchedule.single (sendFrame OtaBoot.cmdStartUpdate 0 announcement) fault).OneEach where
  once raw m n hm hn := (isSome_single hm).2.trans (isSome_single hn).2.symm
  exchanges raw n h := ⟨_, 0, announcement, (isSome_single h).1, .inl rfl⟩
  damaged raw n arrived h := by
    obtain ⟨rfl, rfl⟩ := isSome_single (Option.isSome_of_eq_some h)
    rw [FaultSchedule.single, if_pos ⟨rfl, rfl⟩, Option.some.injEq] at h
    exact hdamaged arrived h
  replyDamaged raw n arrived h := by
    obtain ⟨rfl, rfl⟩ := isSome_single (Option.isSome_of_eq_some h)
    rw [FaultSchedule.single, if_pos ⟨rfl, rfl⟩, Option.some.injEq] at h
    exact absurd h (hreply arrived)

theorem damaged_announcement :
    Damaged (sendFrame OtaBoot.cmdStartUpdate 0 announcement) badAnnouncement := by
  have hne (crc : UInt32) : crc ≠ crc + 1 := by
    intro heq
    have hnat := congrArg UInt32.toNat heq
    rw [UInt32.toNat_add, UInt32.toNat_one] at hnat
    have hlt := crc.toNat_lt
    omega
  exact .mk (by decide : announcement.length ≤ 1024) rfl (hne _)

end Announcement

/-- A START_UPDATE frame that arrives with a wrong CRC ends the update. -/
theorem damaged_start_refused :
    (FaultSchedule.single (sendFrame OtaBoot.cmdStartUpdate 0 announcement)
      (.damaged badAnnouncement)).OneEach ∧
    ¬ ∃ l', Returns ((Channel.bytewise.faultyWire (.single
      (sendFrame OtaBoot.cmdStartUpdate 0 announcement) (.damaged badAnnouncement))).sendFirmware
        eightBytes 1 7) ⟨Board.blank.flash, protocolInit, [], []⟩ true l' := by
  have hone : (FaultSchedule.single (sendFrame OtaBoot.cmdStartUpdate 0 announcement)
      (.damaged badAnnouncement)).OneEach := by
    refine single_announcement_oneEach ?_ ?_
    · intro arrived harrived
      cases harrived
      exact damaged_announcement
    · intro arrived harrived
      cases harrived
  refine ⟨hone, ?_⟩
  rintro ⟨l', htrue⟩
  have hrefused : ∃ l'', Returns (_ : ToolM Link Bool) ⟨Board.blank.flash, protocolInit, [], []⟩
      false l'' :=
    sendFirmware_of_damaged hone Channel.bytewise_reliable sendable_eightBytes (.inl rfl) .init
      (by decide : 7 < 2 ^ 32) ⟨_, List.mem_cons_self, badAnnouncement, by
        rw [Board.blank_freeSlot]
        exact if_pos ⟨rfl, rfl⟩⟩
  rw [Board.blank_freeSlot] at hrefused
  obtain ⟨l'', hfalse⟩ := hrefused
  have hboth := htrue.symm.trans hfalse
  cases hboth

/-- The ACK for START_UPDATE is lost, and the update goes on. -/
theorem update_survives_iff_lostAck :
    ∃ l', Returns ((Channel.bytewise.faultyWire (.single
        (sendFrame OtaBoot.cmdStartUpdate 0 announcement) .replyLost)).sendFirmware
        eightBytes 1 7) ⟨Board.blank.flash, protocolInit, [], []⟩ true l' ∧
      l'.proto.state = .complete ∧ l'.flash.read slotBAddr.toNat 8 = eightBytes := by
  have hone : (FaultSchedule.single (sendFrame OtaBoot.cmdStartUpdate 0 announcement)
      .replyLost).OneEach := by
    refine single_announcement_oneEach ?_ ?_
    all_goals
      intro arrived harrived
      cases harrived
  have hpast : session Board.blank.flash protocolInit [] =
      some (Board.blank.flash, protocolInit) := rfl
  have hsurvives := update_survives_iff Channel.bytewise_reliable hpast (.inl rfl) hone eightBytes
    (by decide) (by decide) 7 (by decide)
  rw [Board.blank_freeSlot] at hsurvives
  refine hsurvives.mpr ?_
  rintro raw - ⟨arrived, hdamages⟩
  unfold FaultSchedule.single at hdamages
  split at hdamages <;> cases hdamages

end OtaBoot.Host
