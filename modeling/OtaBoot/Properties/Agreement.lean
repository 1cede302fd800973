import OtaBoot.Properties.Faults
import OtaBoot.Host.Exchanges

/-!
# What success means

The tool takes any reply that is not a NACK for the reply to the frame that it has
written last. When no reply to an earlier frame is taken for the one to END_UPDATE,
success means that the image is on trial.
-/

namespace OtaBoot.Host

open Storage Raising LittleEndian

/-! ## Frames that arrive unaltered -/

/-- Every byte at time 0. -/
def Channel.prompt : Channel := fun _ raw => bytePolls 0 raw

theorem Channel.prompt_reliable : Channel.prompt.Reliable :=
  fun l raw => delivers_bytePolls l.proto 0 raw

theorem Link.write_prompt (l : Link) (raw : List UInt8) :
    l.write (fun _ _ => bytePolls 0 raw) raw = l.write .prompt raw := rfl

/-- The ACK for a frame, as the tool receives it. -/
def ack (seq : UInt16) : Frame := ⟨rspAck, seq.toNat, []⟩

section Intact

variable {cmd : UInt8} {seq : UInt16} {data more : List UInt8} {rx : Receiver}

theorem drained_bytePolls (nowMs : UInt32) (raw : List UInt8) :
    (bytePolls nowMs raw).flatMap Poll.drained = raw := by
  induction raw with
  | nil => rfl
  | cons b raw ih => exact congrArg (b :: ·) ih

/-- The receiver reports a frame that it is given. -/
theorem reports_sendFrame (hhunting : rx.Hunting) (hshort : data.length ≤ 1024) :
    reports rx (sendFrame cmd seq data) = [.dispatched ⟨cmd.toNat, seq.toNat, data⟩] := by
  obtain ⟨front, last, rx', rx'', hframe, habsorbs, hlast, -⟩ :=
    Receiver.feed_sendFrame cmd seq hhunting hshort
  rw [hframe, reports_absorbs _ habsorbs, reports, hlast]
  rfl

theorem accepts_sendFrame (hhunting : rx.Hunting) (hshort : data.length ≤ 1024) :
    Network.Accepts (sendFrame cmd seq data) (reports rx (sendFrame cmd seq data)) := by
  rw [reports_sendFrame hhunting hshort]
  change [encode ⟨cmd.toNat, seq.toNat, data⟩].Sublist _
  rw [encode_eq cmd seq hshort]

theorem framesIn_sendFrame (hshort : data.length ≤ 1024) :
    framesIn (sendFrame cmd seq data) = [⟨cmd.toNat, seq.toNat, data⟩] := by
  have hparse : reports protocolInit.rx (sendFrame cmd seq data) = parse _ :=
    reports_eq_parse rfl _
  rw [framesIn, ← hparse, reports_sendFrame (.inl rfl) hshort]
  rfl

end Intact

namespace Network

section Intact

variable {net : Network} {seq : UInt16} {raw : List UInt8} {up : List (List UInt8)}
  {state : Protocol → Flash → Prop}

/-- A frame arrives, and its ACK is on its way. -/
theorem step_intact (hup : net.up = raw :: up)
    (hanswered : net.link.Answered .prompt state raw (sendFrame OtaBoot.rspAck seq [])) :
    ∃ l : Link, state l.proto l.flash ∧ l.inbox = net.link.inbox ∧
      l.sent = net.link.sent ++ [ack seq] ∧
      net.step (.arrive (bytePolls 0 raw)) =
        { net with
          link := l
          up := up
          down := net.down ++ [ack seq]
          heard := net.heard ++ [net.link.hears raw (bytePolls 0 raw)] } := by
  obtain ⟨hstate, hreply⟩ := hanswered
  have hframes : framesIn (sendFrame OtaBoot.rspAck seq []) = [ack seq] :=
    framesIn_sendFrame (by decide)
  refine ⟨(net.link.write .prompt raw).keep net.link.inbox, hstate, rfl, ?_, ?_⟩
  · change (net.link.write .prompt raw).sent = _
    rw [Link.sent_write, hreply, hframes]
  · rw [step_arrive net _ hup, Link.write_prompt, hreply, hframes]

/-- Replies arrive, one after the other. -/
theorem steps_reply (net : Network) (replies : List (List UInt8))
    (hcount : replies.length ≤ net.down.length) :
    (replies.map .reply).foldl step net =
      { net with
        link := net.link.keep (net.link.inbox ++ replies.flatten)
        down := net.down.drop replies.length } := by
  induction replies generalizing net with
  | nil =>
      rw [List.flatten_nil, List.append_nil]
      rfl
  | cons reply replies ih =>
      cases hdown : net.down with
      | nil =>
          rw [hdown] at hcount
          cases hcount
      | cons frame down =>
          rw [hdown, List.length_cons, List.length_cons, Nat.add_le_add_iff_right] at hcount
          have hstep : net.step (.reply reply) =
              { net with link := net.link.keep (net.link.inbox ++ reply), down := down } := by
            simp only [step, hdown]
          rw [List.map_cons, List.foldl_cons, hstep, ih _ hcount, List.flatten_cons,
            ← List.append_assoc]
          rfl

/-- These ACKs, one behind the other. -/
def acks (seq : UInt16) (n : Nat) : List UInt8 :=
  (List.replicate n (sendFrame OtaBoot.rspAck seq [])).flatten

theorem firstFrame_acks {n : Nat} {frame : Frame} (h : firstFrame (acks seq n) = some frame) :
    n ≠ 0 ∧ frame = ack seq := by
  cases n with
  | zero =>
      cases firstFrame_nil.symm.trans h
  | succ n =>
      rw [acks, List.replicate_succ, List.flatten_cons, firstFrame_sendFrame (by decide)] at h
      exact ⟨Nat.succ_ne_zero n, (Option.some.inj h).symm⟩

/-- A wait keeps the history genuine, if what it adds is. -/
theorem Genuine.wait (h : net.Genuine)
    (hboard : ∀ entry ∈ net.wait.heard, Accepts entry.written entry.reports)
    (htool : ∀ frame, firstFrame net.wait.link.inbox = some frame → frame ∈ net.wait.link.sent) :
    net.wait.Genuine := by
  refine ⟨hboard, fun reading hreading => ?_⟩
  rw [(wait_history net).2.2, List.mem_append, List.mem_singleton] at hreading
  rcases hreading with hbefore | rfl
  · exact h.tool reading hbefore
  · exact htool

/-- So it does with replies that match. -/
theorem Matched.wait (h : net.Matched)
    (hlast : ∀ number frame, encode ⟨cmdEndUpdate, number, []⟩ = .ok net.written →
      firstFrame net.wait.link.inbox = some frame → frame.seq = number) : net.wait.Matched := by
  intro reading hreading
  rw [(wait_history net).2.2, List.mem_append, List.mem_singleton] at hreading
  rcases hreading with hbefore | rfl
  · exact h reading hbefore
  · exact fun number frame hwritten hfound _ => hlast number frame hwritten hfound

/-- The tool is about to write: these frames are still on their way to the board, and
so many replies on theirs to the tool; so many ACKs can be read. -/
structure Resting (state : Protocol → Flash → Prop) (seq : UInt16) (moves : List (List Move))
    (up : List (List UInt8)) (replies n : Nat) (net : Network) : Prop where
  state : state net.link.proto net.link.flash
  up : net.up = up
  moves : net.moves = moves
  down : net.down.length = replies
  inbox : net.link.inbox = acks seq n
  sent : n ≠ 0 → ack seq ∈ net.link.sent
  genuine : net.Genuine
  room : net.HasRoom

/-- What happens when a frame arrives as it is, and then so many of its ACKs. -/
def intactMoves (raw : List UInt8) (seq : UInt16) (n : Nat) : List Move :=
  .arrive (bytePolls 0 raw) :: (List.replicate n (sendFrame OtaBoot.rspAck seq [])).map .reply

variable {state' : Protocol → Flash → Prop} {cmd : UInt8} {seq' : UInt16} {data : List UInt8}
  {moves rest : List (List Move)} {replies n : Nat}

theorem Resting.wait_intact
    (h : Resting state seq' (intactMoves raw seq n :: rest) [] replies 0 net)
    (hn : n ≤ replies + 1) (haccepts : Accepts raw (reports net.link.proto.rx raw))
    (hroom : counterAt net.link.flash < 2 ^ 32 - 1)
    (hanswered : net.link.Answered .prompt state' raw (sendFrame OtaBoot.rspAck seq [])) :
    Resting state' seq rest [] (replies + 1 - n) n (net.write raw).wait := by
  have hup : ({ net.write raw with moves := rest } : Network).up = raw :: [] := by
    change net.up ++ [raw] = _
    rw [h.up, List.nil_append]
  obtain ⟨l, hstate, hinbox, hsent, hstep⟩ := step_intact hup hanswered
  have hempty : l.inbox = [] := hinbox.trans h.inbox
  have hcount : (List.replicate n (sendFrame OtaBoot.rspAck seq [])).length ≤
      (net.down ++ [ack seq]).length := by
    rw [List.length_replicate, List.length_append, h.down]
    exact hn
  have hsteps : (intactMoves raw seq n).foldl step { net.write raw with moves := rest } =
      { net.write raw with
        moves := rest
        link := l.keep (acks seq n)
        up := []
        down := (net.down ++ [ack seq]).drop n
        heard := net.heard ++ [net.link.hears raw (bytePolls 0 raw)] } := by
    rw [intactMoves, List.foldl_cons, hstep, steps_reply _ _ hcount, List.length_replicate, hempty]
    rfl
  have hmoves : (net.write raw).moves = intactMoves raw seq n :: rest := h.moves
  have hwait : (net.write raw).wait =
      { net.write raw with
        moves := rest
        link := l.keep (acks seq n)
        up := []
        down := (net.down ++ [ack seq]).drop n
        heard := net.heard ++ [net.link.hears raw (bytePolls 0 raw)]
        readings := net.readings ++ [⟨raw, acks seq n, l.sent⟩] } := by
    rw [Network.wait, hmoves, List.head?_cons, Option.getD_some, List.tail_cons, hsteps]
    rfl
  have hack : ack seq ∈ (net.write raw).wait.link.sent := by
    rw [hwait]
    change ack seq ∈ l.sent
    rw [hsent]
    exact List.mem_append_right _ List.mem_cons_self
  have hwritten : (net.write raw).Genuine := ⟨h.genuine.board, h.genuine.tool⟩
  have hinbox' : (net.write raw).wait.link.inbox = acks seq n := by rw [hwait]; rfl
  refine ⟨?_, ?_, ?_, ?_, hinbox', fun _ => hack, hwritten.wait ?_ ?_, ?_⟩
  · rw [hwait]
    exact hstate
  · rw [hwait]
  · rw [hwait]
  · rw [hwait, List.length_drop, List.length_append, h.down]
    rfl
  · rw [hwait]
    intro entry hentry
    rcases List.mem_append.mp hentry with hbefore | hnew
    · exact h.genuine.board entry hbefore
    · rw [List.mem_singleton.mp hnew, Link.hears, drained_bytePolls]
      exact haccepts
  · intro frame hfound
    rw [hinbox'] at hfound
    rw [(firstFrame_acks hfound).2]
    exact hack
  · rw [hwait]
    intro entry hentry
    rcases List.mem_append.mp hentry with hbefore | hnew
    · exact h.room entry hbefore
    · rw [List.mem_singleton.mp hnew]
      exact fun _ _ => hroom

/-- Nothing happens while the tool waits. -/
theorem Resting.wait_silent (h : Resting state seq ([] :: rest) up replies n net)
    (raw : List UInt8) : Resting state seq rest (up ++ [raw]) replies n (net.write raw).wait := by
  have hmoves : (net.write raw).moves = [] :: rest := h.moves
  have hwait : (net.write raw).wait =
      { net.write raw with
        moves := rest
        readings := net.readings ++ [⟨raw, net.link.inbox, net.link.sent⟩] } := by
    rw [Network.wait, hmoves]
    rfl
  have hwritten : (net.write raw).Genuine := ⟨h.genuine.board, h.genuine.tool⟩
  have hinbox : (net.write raw).wait.link.inbox = acks seq n := by rw [hwait]; exact h.inbox
  have hsent : (net.write raw).wait.link.sent = net.link.sent := by rw [hwait]; rfl
  refine ⟨?_, ?_, ?_, ?_, hinbox, ?_, hwritten.wait ?_ ?_, ?_⟩
  · rw [hwait]
    exact h.state
  · rw [hwait]
    exact congrArg (· ++ [raw]) h.up
  · rw [hwait]
  · rw [hwait]
    exact h.down
  · rw [hsent]
    exact h.sent
  · rw [hwait]
    exact h.genuine.board
  · intro frame hfound
    rw [hinbox] at hfound
    obtain ⟨hsome, rfl⟩ := firstFrame_acks hfound
    rw [hsent]
    exact h.sent hsome
  · rw [hwait]
    exact h.room

/-- Some of the ACKs are read, or dropped. -/
theorem Resting.keep (h : Resting state seq moves up replies n net) {k : Nat} (hk : k ≤ n) :
    Resting state seq moves up replies k (net.keep (acks seq k)) where
  state := h.state
  up := h.up
  moves := h.moves
  down := h.down
  inbox := rfl
  sent hsome := h.sent (by omega)
  genuine := ⟨h.genuine.board, h.genuine.tool⟩
  room := h.room

/-- The tool takes the first ACK that there is. -/
theorem Resting.returns_exchange (attempts : Nat)
    (hshort : data.length ≤ 1024)
    (h : Resting state seq moves up replies (n + 1) (net.write (sendFrame cmd seq' data)).wait) :
    Returns (wire.exchange ⟨cmd.toNat, seq'.toNat, data⟩ (attempts + 1)) net (ack seq)
      ((net.write (sendFrame cmd seq' data)).wait.keep (acks seq n)) := by
  have hinbox : wire.inbox (wire.wait (wire.write (sendFrame cmd seq' data) net)) =
      sendFrame OtaBoot.rspAck seq [] ++ acks seq n := by
    refine h.inbox.trans ?_
    rw [acks, List.replicate_succ, List.flatten_cons, acks]
  exact Wire.returns_exchange attempts hshort
    (Wire.returns_receive (by decide : [].length ≤ 1024) hinbox)

/-- There is none, and the frame is written again. -/
theorem Resting.returns_exchange_again {attempts : Nat} {rep : Frame} {net' : Network}
    (hshort : data.length ≤ 1024)
    (h : Resting state seq moves up replies 0 (net.write (sendFrame cmd seq' data)).wait)
    (hagain : Returns (wire.exchange ⟨cmd.toNat, seq'.toNat, data⟩ (attempts + 1))
      ((net.write (sendFrame cmd seq' data)).wait.keep []) rep net') :
    Returns (wire.exchange ⟨cmd.toNat, seq'.toNat, data⟩ (attempts + 2)) net rep net' := by
  have hempty : wire.inbox (wire.wait (wire.write (sendFrame cmd seq' data) net)) = [] := h.inbox
  have hreceive : Raises wire.receive (wire.write (sendFrame cmd seq' data) net) .timeout _ :=
    Wire.raises_receive (by rw [hempty]; rfl)
  exact Wire.returns_exchange_again hshort (.inl rfl) hreceive hagain

/-- A frame is exchanged for its own ACK. -/
theorem Resting.exchange_intact (attempts : Nat) (hshort : data.length ≤ 1024)
    (h : Resting state seq' (intactMoves (sendFrame cmd seq data) seq 1 :: rest) [] replies 0 net)
    (hhunting : net.link.proto.rx.Hunting) (hroom : counterAt net.link.flash < 2 ^ 32 - 1)
    (hanswered : net.link.Answered .prompt state' (sendFrame cmd seq data)
      (sendFrame OtaBoot.rspAck seq [])) :
    ∃ net', Returns (wire.exchange ⟨cmd.toNat, seq.toNat, data⟩ (attempts + 1)) net (ack seq) net' ∧
      Resting state' seq rest [] replies 0 net' ∧ (net.Matched → net'.Matched) := by
  have hresting := h.wait_intact (Nat.succ_le_succ (Nat.zero_le replies))
    (accepts_sendFrame hhunting hshort) hroom hanswered
  refine ⟨_, hresting.returns_exchange attempts hshort, hresting.keep (Nat.zero_le 1), ?_⟩
  intro hmatched
  have hwritten : (net.write (sendFrame cmd seq data)).Matched := hmatched
  refine hwritten.wait fun number frame hencode hfound => ?_
  rw [hresting.inbox] at hfound
  obtain ⟨-, rfl⟩ := firstFrame_acks hfound
  obtain ⟨hframe, hnumber, hnone⟩ := encode_eq_sendFrame OtaBoot.cmdEndUpdate hencode
  obtain ⟨-, hseq, -⟩ := sendFrame_inj hshort hnone hframe
  rw [ack, hseq, hnumber]

end Intact

end Network

/-! ### Eight bytes -/

section EightBytes

variable {l : Link} {s : Slot} {image : List UInt8} {counter : Nat}

/-- An image is announced and described, and nothing of it is stored. -/
structure Begun (s : Slot) (image : List UInt8) (counter : Nat) (p : Protocol) (flash : Flash) :
    Prop where
  held : Held s image 0 1 p flash
  free : freeSlot flash = s
  counter : counterAt flash = counter
  record : ∃ m, metadataRead flash = some m ∧ (m.slot s).state = stateInProgress

theorem Begun.hasRoom {p : Protocol} {flash : Flash} (h : Begun s image counter p flash)
    (hroom : counter < 2 ^ 32 - 1) : counterAt flash < 2 ^ 32 - 1 := h.counter.trans_lt hroom

/-- START_UPDATE, in whatever state. -/
theorem Begun.answered_start (himage : Sendable image) (ver : UInt32) (hfree : freeSlot l.flash = s)
    (hcounter : counterAt l.flash = counter) (hroom : counter < 2 ^ 32 - 1)
    (hhunting : l.proto.rx.Hunting) (htimer : TimerSet l.proto) :
    l.Answered .prompt (Begun s image (counter + 1))
      (sendFrame OtaBoot.cmdStartUpdate 0
        (startPayload (UInt32.ofNat image.length) (crc32Compute image) ver s))
      (sendFrame OtaBoot.rspAck 0 []) := by
  subst hcounter
  have hsound := startRecord_sound l.flash (freeSlot l.flash) (crc32Compute image) ver
    himage.size_le
  refine (Host.answered_start Channel.prompt_reliable himage ver hfree hhunting htimer).mono ?_
  rintro q flash ⟨hheld, rfl⟩
  refine ⟨hheld, (freeSlot_startImage _ ver himage.size_le).trans hfree,
    counterAt_completeImage hroom hsound, ?_⟩
  obtain ⟨m, hread, hm⟩ := ledgerAt_eq_some
    (ledgerAt_startRecord (counterOk_iff.mpr hroom) (crc32Compute image) ver himage.size_le)
  refine ⟨m, hread, ?_⟩
  have hslot : m.ledger.slot s = ⟨UInt32.ofNat image.length, crc32Compute image, ver,
      stateInProgress⟩ := by
    rw [hm, ← hfree, freeSlot_eq]
    exact slot_start _ _ _ _
  exact congrArg Descriptor.state hslot

/-- A blank board is ready for it. -/
theorem announcement_answered {moves : List (List Move)} :
    (Network.initial Board.blank.flash protocolInit moves).link.Answered .prompt
      (Begun .b eightBytes 1) (sendFrame OtaBoot.cmdStartUpdate 0 announcement)
      (sendFrame OtaBoot.rspAck 0 []) :=
  Begun.answered_start sendable_eightBytes 7 Board.blank_freeSlot Board.blank_counter (by decide)
    (.inl rfl) .init

/-- It may be announced once more. -/
theorem Begun.answered (h : Begun .b eightBytes counter l.proto l.flash)
    (hroom : counter < 2 ^ 32 - 1) :
    l.Answered .prompt (Begun .b eightBytes (counter + 1))
      (sendFrame OtaBoot.cmdStartUpdate 0 announcement) (sendFrame OtaBoot.rspAck 0 []) :=
  Begun.answered_start sendable_eightBytes 7 h.free h.counter hroom (.inl h.held.hunting)
    fun _ => h.held.timeout

/-- A block does not touch the metadata. -/
theorem Held.counterAt_write_block {block : List UInt8} {sent : Nat} {seq : UInt16}
    (h : Held s image sent seq l.proto l.flash) (himage : Sendable image)
    (hshort : block.length ≤ 1024) :
    counterAt (l.write .prompt (sendFrame OtaBoot.cmdData seq block)).flash ≤
      counterAt l.flash := by
  let t := l.proto.toTransfer
  let r : StartRequest := ⟨t.fwSize, t.fwCrc32, t.fwVersion, t.targetSlot.toByte, 0⟩
  have hannounced : Announced r t := ⟨h.loading.bounded himage, fun _ => ⟨rfl, rfl, rfl, rfl⟩⟩
  have hphases := Link.write_phases Gathering.steady Gathering.steady (fun frame p hencode =>
    act_dispatched hencode hshort p ▸ Gathering.dispatch_data (Nat.ne_of_lt (Nat.lt_succ_self _))
      hshort hannounced p) l (bytePolls 0 (sendFrame OtaBoot.cmdData seq block)) ?_
    (Gathering.fresh r (seq.toNat + 1) l.proto l.flash)
  · rcases hphases with hbefore | hafter
    · exact hbefore.counter
    · exact hafter.counter
  · rw [drained_bytePolls]
    exact accepts_sendFrame (.inl h.hunting) hshort

theorem blank_hasRoom : counterAt Board.blank.flash < 2 ^ 32 - 1 := by
  rw [Board.blank_counter]
  decide

/-- The board is blank, and nothing was written. -/
theorem resting_initial (moves : List (List Move)) :
    Network.Resting (fun p flash => p = protocolInit ∧ flash = Board.blank.flash) 0 moves [] 0 0
      (.initial Board.blank.flash protocolInit moves) where
  state := ⟨rfl, rfl⟩
  up := rfl
  moves := rfl
  down := rfl
  inbox := rfl
  sent hsome := absurd rfl hsome
  genuine := ⟨nofun, nofun⟩
  room := nofun

/-- Three exchanges that end with an ACK, of whatever frame, are an update. -/
theorem sendFirmware_eightBytes {net₀ net₁ net₂ net₃ : Network} {a b c : UInt16}
    (hstart : Returns (Network.wire.exchange ⟨cmdStartUpdate, 0, announcement⟩ 3) net₀ (ack a) net₁)
    (hdata : Returns (Network.wire.exchange ⟨cmdData, 1, eightBytes⟩ 3) net₁ (ack b) net₂)
    (hend : Returns (Network.wire.exchange ⟨cmdEndUpdate, 2, []⟩ 1) net₂ (ack c) net₃) :
    Returns (Network.wire.sendFirmware eightBytes 1 7) net₀ true net₃ := by
  have hpack : StartUpdate.pack ⟨eightBytes.length, crc32Stm32 eightBytes, 7, 1⟩ =
      .ok announcement := pack_announcement sendable_eightBytes .b (by decide : 7 < 2 ^ 32)
  have hsplit : splitFirmware eightBytes = [eightBytes] := rfl
  have hnotNack : ¬ rspAck = rspNack := by decide
  refine .bind (.ofExcept hpack _) (.bind hstart ?_)
  rw [ack, if_neg hnotNack, hsplit]
  have hblocks : Returns (Network.wire.sendBlocks 1 [eightBytes]) net₁ (some 2) net₂ := by
    refine .bind (.tryCatch (.bind hdata (.pure _ _))) ?_
    change Returns (if (ack b).cmd = rspNack then _ else _) _ _ _
    rw [ack, if_neg hnotNack]
    exact .pure _ _
  refine .bind hblocks (.bind (.tryCatch hend) ?_)
  rw [ack, if_neg hnotNack]
  exact .pure _ _

end EightBytes

/-! ## The result -/

/-- In every run of an update in which nothing that was altered is taken for a frame,
and no reply to an earlier frame for the one to END_UPDATE, and in which the write
counter has room for the record of END_UPDATE, success means that this was carried out:
the record in force puts the announced image on trial in the announced slot. -/
theorem success_agreed (flash : Flash) (p : Protocol) (moves : List (List Move))
    (firmware : List UInt8) (slot version : Nat) {net : Network}
    (hsuccess : Returns (Network.wire.sendFirmware firmware slot version)
      (.initial flash p moves) true net)
    (hgenuine : net.Genuine) (hmatched : net.Matched) (hroom : net.HasRoom) :
    net.link.proto.state = .complete ∧ ∃ m s, metadataRead net.link.flash = some m ∧
      s.toByte.toNat = slot ∧ m.active = s ∧ (m.slot s).state = stateTesting ∧
      (m.slot s).size.toNat = firmware.length ∧ (m.slot s).crc32.toNat = crc32Stm32 firmware ∧
      (m.slot s).version.toNat = version := by
  have hinitial (payload : List UInt8) (last : Nat) : (Network.initial flash p moves).Holds
      (Opened payload last False) := by
    intro _ _ _
    refine ⟨fun raw hmem => ?_, fun frame hmem => ?_, False.elim⟩
    all_goals cases hmem
  obtain ⟨r, hsize, hcrc, hver, hslot, hstate, s, l, hbyte, hledger, hactive, hdescriptor⟩ :=
    (ensures_sendFirmware firmware slot version).returns hinitial hsuccess rfl hgenuine hmatched
      hroom
  obtain ⟨m, hread, rfl⟩ := ledgerAt_eq_some hledger
  have hslotEq : (m.slot s).descriptor = ⟨r.size, r.crc, r.ver, stateTesting⟩ := hdescriptor
  obtain ⟨hsizeEq, hcrcEq, hverEq, hstateEq⟩ := Descriptor.mk.inj hslotEq
  refine ⟨hstate, m, s, hread, ?_, hactive, hstateEq, ?_, ?_, ?_⟩
  · rw [hbyte, hslot]
  · rw [hsizeEq, hsize]
  · rw [hcrcEq, hcrc]
  · rw [hverEq, hver]

/-- Each frame arrives at the board as it is, and so does its ACK at the tool. -/
def intactUpdate : List (List Move) :=
  [Network.intactMoves (sendFrame OtaBoot.cmdStartUpdate 0 announcement) 0 1,
    Network.intactMoves (sendFrame OtaBoot.cmdData 1 eightBytes) 1 1,
    Network.intactMoves (sendFrame OtaBoot.cmdEndUpdate 2 []) 2 1]

theorem success_agreed_eightBytes : ∃ net,
    Returns (Network.wire.sendFirmware eightBytes 1 7)
      (.initial Board.blank.flash protocolInit intactUpdate) true net ∧
    net.Genuine ∧ net.Matched ∧ net.HasRoom ∧ net.link.proto.state = .complete ∧
    ∃ m s, metadataRead net.link.flash = some m ∧ s.toByte.toNat = 1 ∧ m.active = s ∧
      (m.slot s).state = stateTesting ∧ (m.slot s).size.toNat = eightBytes.length ∧
      (m.slot s).crc32.toNat = crc32Stm32 eightBytes ∧ (m.slot s).version.toNat = 7 := by
  have hnext : Underway.Next eightBytes 0 eightBytes := ⟨by decide, by decide, by decide, rfl⟩
  have hmatched₀ : (Network.initial Board.blank.flash protocolInit intactUpdate).Matched := by
    intro reading hreading
    cases hreading
  obtain ⟨net₁, hstart, h₁, hmatched₁⟩ := (resting_initial intactUpdate).exchange_intact 2
    (by decide) (.inl rfl) blank_hasRoom announcement_answered
  have hcounter₁ := h₁.state.hasRoom (by decide)
  have hblock := h₁.state.held.answered_block Channel.prompt_reliable sendable_eightBytes hnext
    (by decide)
  have hcounter₂ := h₁.state.held.counterAt_write_block sendable_eightBytes
    (by decide : eightBytes.length ≤ 1024)
  have hanswered : net₁.link.Answered .prompt
      (fun q flash => Held .b eightBytes eightBytes.length 2 q flash ∧
        counterAt flash < 2 ^ 32 - 1)
      (sendFrame OtaBoot.cmdData 1 eightBytes) (sendFrame OtaBoot.rspAck 1 []) :=
    ⟨⟨hblock.1, hcounter₂.trans_lt hcounter₁⟩, hblock.2⟩
  obtain ⟨net₂, hdata, h₂, hmatched₂⟩ := h₁.exchange_intact 2 (by decide)
    (.inl h₁.state.held.hunting) hcounter₁ hanswered
  obtain ⟨net₃, hend, h₃, hmatched₃⟩ := h₂.exchange_intact 0 (by decide) (.inl h₂.state.1.hunting)
    h₂.state.2 (h₂.state.1.answered_end Channel.prompt_reliable sendable_eightBytes 2)
  have hsuccess := sendFirmware_eightBytes hstart hdata hend
  have hmatched := hmatched₃ (hmatched₂ (hmatched₁ hmatched₀))
  exact ⟨net₃, hsuccess, h₃.genuine, hmatched, h₃.room,
    success_agreed _ _ _ _ _ _ hsuccess h₃.genuine hmatched h₃.room⟩

/-- START_UPDATE is written three times before its three ACKs arrive. Nothing arrives
from then on. -/
def lateAcks : List (List Move) :=
  [Network.intactMoves (sendFrame OtaBoot.cmdStartUpdate 0 announcement) 0 0,
    Network.intactMoves (sendFrame OtaBoot.cmdStartUpdate 0 announcement) 0 0,
    Network.intactMoves (sendFrame OtaBoot.cmdStartUpdate 0 announcement) 0 3, [], []]

/-- The late ACKs pass for those to DATA and to END_UPDATE, which the board has never
received. -/
theorem late_acks_believed : ∃ net,
    Returns (Network.wire.sendFirmware eightBytes 1 7)
      (.initial Board.blank.flash protocolInit lateAcks) true net ∧
    net.Genuine ∧ net.HasRoom ∧ net.link.proto.state = .receiving ∧
    ¬ ∃ m s, metadataRead net.link.flash = some m ∧ s.toByte.toNat = 1 ∧
      (m.slot s).state = stateTesting := by
  have hshort : announcement.length ≤ 1024 := by decide
  have hfirst := (resting_initial lateAcks).wait_intact (Nat.zero_le 1)
    (accepts_sendFrame (.inl rfl) hshort) blank_hasRoom announcement_answered
  have h₁ := hfirst.keep (Nat.le_refl 0)
  have hsecond := h₁.wait_intact (Nat.zero_le 2)
    (accepts_sendFrame (.inl h₁.state.held.hunting) hshort) (h₁.state.hasRoom (by decide))
    (h₁.state.answered (by decide))
  have h₂ := hsecond.keep (Nat.le_refl 0)
  have hthird := h₂.wait_intact (Nat.le_refl 3)
    (accepts_sendFrame (.inl h₂.state.held.hunting) hshort) (h₂.state.hasRoom (by decide))
    (h₂.state.answered (by decide))
  have h₃ := hthird.keep (Nat.le_succ 2)
  have hfourth := h₃.wait_silent (sendFrame OtaBoot.cmdData 1 eightBytes)
  have h₄ := hfourth.keep (Nat.le_succ 1)
  have hfifth := h₄.wait_silent (sendFrame OtaBoot.cmdEndUpdate 2 [])
  have h₅ := hfifth.keep (Nat.zero_le 1)
  have hstart := hfirst.returns_exchange_again hshort
    (hsecond.returns_exchange_again hshort (hthird.returns_exchange 0 hshort))
  have hdata := hfourth.returns_exchange 2 (by decide)
  have hend := hfifth.returns_exchange 0 (by decide)
  refine ⟨_, sendFirmware_eightBytes hstart hdata hend, h₅.genuine, h₅.room,
    h₅.state.held.loading.state, ?_⟩
  obtain ⟨m, hread, hprogress⟩ := h₅.state.record
  rintro ⟨m', s, hread', hslot, htesting⟩
  obtain rfl : m = m' := Option.some.inj (hread.symm.trans hread')
  cases s with
  | a => cases hslot
  | b =>
      rw [hprogress] at htesting
      cases htesting

end OtaBoot.Host
