import OtaBoot.Properties.OnDevice
import OtaBoot.Properties.Agreement

/-!
# From one application to the next

A whole update of a device, from the request of the running application over a run of
the update tool to the application that the tool has sent: nothing is given but the
channel, the file and the times.
-/

namespace OtaBoot

open Storage

/-! ## What completes an update -/

section Incomplete

variable {p : Protocol}

/-- No update is complete. -/
def Protocol.Incomplete (p : Protocol) : Prop := p.state ≠ .complete

theorem Protocol.Incomplete.of_abort {t : Transfer} (p : Protocol) (h : p.toTransfer = t.abort) :
    p.Incomplete := by
  rw [Protocol.Incomplete, h]
  exact fun hcomplete => by cases hcomplete

theorem onStartUpdate_incomplete (h : p.Incomplete) (seq : UInt16) (data : List UInt8) :
    (p.onStartUpdate seq data).Yields Protocol.Incomplete := by
  refine .ite (fun _ => .pure h) fun _ => .ite (fun _ => .pure h) fun _ => ?_
  refine .bind fun flash => .ite (fun _ => .pure h) fun _ => .ite (fun _ => .pure h) fun _ => ?_
  refine .bind fun st => .ite (fun _ => .pure h) fun _ => .pure ?_
  exact fun hcomplete => by cases hcomplete

theorem onData_incomplete (h : p.Incomplete) (seq : UInt16) (data : List UInt8) :
    (p.onData seq data).Yields Protocol.Incomplete := by
  refine .ite (fun _ => .pure h) fun _ => .ite (fun _ => .pure h) fun _ => ?_
  refine .ite (fun _ => .pure (.of_abort _ rfl)) fun _ => .ite (fun _ => .pure h) fun _ => ?_
  refine .ite (fun _ => .pure (.of_abort _ rfl)) fun _ => ?_
  refine .ite (fun _ => .bind fun st => ?_) fun _ => .bind fun st => ?_
  all_goals
    refine .ite (fun _ => .pure (.of_abort _ rfl)) fun _ => .bind fun st => ?_
    exact .ite (fun _ => .pure (.of_abort _ rfl)) fun _ => .pure h

/-- Nothing but END_UPDATE completes an update. -/
theorem dispatch_incomplete (h : p.Incomplete) {cmd : UInt8} (hcmd : cmd ≠ cmdEndUpdate)
    (seq : UInt16) (data : List UInt8) : (p.dispatch cmd seq data).Yields Protocol.Incomplete := by
  have h' : ({ p with cntFramesOk := p.cntFramesOk + 1 } : Protocol).Incomplete := h
  refine .ite (fun _ => .bind fun flash => .pure h') fun _ => ?_
  refine .ite (fun _ => onStartUpdate_incomplete h' seq data) fun _ => ?_
  refine .ite (fun _ => onData_incomplete h' seq data) fun _ => ?_
  refine .ite (fun hend => absurd hend hcmd) fun _ => ?_
  exact .ite (fun _ => .pure (.of_abort _ rfl)) fun _ => .pure h'

theorem pollTail_incomplete (h : p.Incomplete) (nowMs : UInt32) (received : Bool) :
    (p.pollTail nowMs received).Incomplete := by
  unfold Protocol.pollTail
  split
  · exact h
  · split
    · split
      · exact .of_abort _ rfl
      · exact h
    · exact h

end Incomplete

namespace Host

/-! ## Polls of a reliable channel -/

section Silenced

variable {l : Link} {polls : List Poll}

/-- Nothing comes in once the update is complete. -/
def Silenced : Link → List Poll → Prop
  | _, [] => True
  | l, q :: polls => (l.proto.state = .complete → q.bytes = []) ∧ Silenced (l.poll q) polls

/-- No poll ends after the listen window with nothing under way. -/
def InWindow (u : Session) : Link → List Poll → Prop
  | _, [] => True
  | l, q :: polls =>
      ((l.poll q).proto.state = .idle → q.nowMs - u.start ≤ u.limitMs) ∧
        InWindow u (l.poll q) polls

theorem attends_of_silenced {u : Session} (hwindow : InWindow u l polls) (h : Silenced l polls) :
    Attends u l polls := by
  induction polls generalizing l with
  | nil => exact trivial
  | cons q polls ih => exact ⟨h.1, hwindow.1, ih hwindow.2 h.2⟩

theorem silenced_empty (hempty : polls.flatMap Poll.bytes = []) : Silenced l polls := by
  induction polls generalizing l with
  | nil => exact trivial
  | cons q polls ih =>
      rw [List.flatMap_cons, List.append_eq_nil_iff] at hempty
      exact ⟨fun _ => hempty.1, ih hempty.2⟩

/-- A poll without a byte, of a manager that has completed nothing. -/
theorem Link.poll_silent (h : l.proto.Incomplete) (nowMs : UInt32) :
    (l.poll ⟨nowMs, []⟩).proto.Incomplete ∧ (l.poll ⟨nowMs, []⟩).proto.rx = l.proto.rx :=
  ⟨pollTail_incomplete h nowMs false, pollTail_rx _ _ _⟩

/-- Polls that bring a frame bring nothing behind it. -/
theorem silenced_frame {bytes : List UInt8} {last : UInt8} {rx : Receiver}
    (hopen : l.proto.Incomplete) (h : l.proto.rx.Absorbs bytes rx)
    (hintact : polls.flatMap Poll.bytes = bytes ++ [last])
    (hdrained : ∀ poll ∈ polls, poll.bytes.length ≤ uartRxBufferSize) : Silenced l polls := by
  induction polls generalizing l bytes with
  | nil => exact trivial
  | cons q polls ih =>
      obtain ⟨nowMs, chunk⟩ := q
      have hdrained' : ∀ poll ∈ polls, poll.bytes.length ≤ uartRxBufferSize :=
        fun poll hpoll => hdrained poll (List.mem_cons_of_mem _ hpoll)
      refine ⟨fun hcomplete => absurd hcomplete hopen, ?_⟩
      change chunk ++ polls.flatMap Poll.bytes = _ at hintact
      by_cases hchunk : chunk = []
      · subst hchunk
        obtain ⟨hopen', hrx⟩ := Link.poll_silent hopen nowMs
        rw [← hrx] at h
        exact ih hopen' h hintact hdrained'
      have hwithin (rest : List UInt8) (hbytes : bytes = chunk ++ rest)
          (hrest : polls.flatMap Poll.bytes = rest ++ [last]) :
          Silenced (l.poll ⟨nowMs, chunk⟩) polls := by
        rw [hbytes] at h
        obtain ⟨mid, hfront, hback⟩ := h.split
        rw [Link.poll_absorbs nowMs hchunk hfront (hdrained _ List.mem_cons_self)]
        exact ih (l := { l with proto := { l.proto with rx := mid, lastActivityMs := nowMs } })
          hopen hback hrest hdrained'
      -- the poll ends within the frame, or nothing is left of it
      rcases List.append_eq_append_iff.mp hintact with ⟨rest, hbytes, hrest⟩ | ⟨rest, hbytes, hrest⟩
      · exact hwithin rest hbytes hrest
      cases rest with
      | nil =>
          rw [List.append_nil] at hbytes
          refine hwithin [] ?_ hrest.symm
          rw [hbytes, List.append_nil]
      | cons byte rest =>
          obtain ⟨-, htail⟩ := List.cons.inj hrest
          exact silenced_empty (List.append_eq_nil_iff.mp htail.symm).2

end Silenced

/-! ## Channels that a board keeps up with -/

/-- The manager between two frames, before the update is complete. -/
structure Between (p : Protocol) : Prop where
  incomplete : p.Incomplete
  hunting : p.rx.state = .magic0
  timer : TimerSet p

/-- Whatever is written, the board polls while its listen window is open or a transfer
is under way. -/
def Channel.Punctual (channel : Channel) (u : Session) : Prop :=
  ∀ l raw, InWindow u (Link.unsent l) (channel l raw)

/-- A channel that brings every byte at once. -/
theorem Channel.prompt_punctual {u : Session} (hstart : u.start = 0) :
    Channel.prompt.Punctual u := by
  intro l raw
  change InWindow u l.unsent (bytePolls 0 raw)
  generalize l.unsent = l'
  induction raw generalizing l' with
  | nil => exact trivial
  | cons byte raw ih =>
      refine ⟨fun _ => ?_, ih _⟩
      change (0 : UInt32) - u.start ≤ u.limitMs
      rw [hstart, UInt32.sub_self]
      exact UInt32.le_iff_toNat_le.mpr (Nat.zero_le _)

section Reliable

variable {channel : Channel} {u : Session} {l : Link}

/-- A frame that a reliable channel delivers can be followed. -/
theorem attends_frame (hreliable : channel.Reliable) (hpunctual : channel.Punctual u)
    (h : Between l.proto) (cmd : UInt8) (seq : UInt16) {data : List UInt8}
    (hlen : data.length ≤ 1024) :
    Attends u l.unsent (channel l (sendFrame cmd seq data)) := by
  obtain ⟨front, last, rx, rx', hframe, habsorbs, -, -⟩ :=
    Receiver.feed_sendFrame cmd seq (.inl h.hunting) hlen
  have hdelivers := hreliable l (sendFrame cmd seq data)
  exact attends_of_silenced (hpunctual l _) (silenced_frame (l := l.unsent) h.incomplete
    habsorbs (hdelivers.intact.trans hframe) hdelivers.drained)

/-- A frame that completes nothing leaves the manager between two frames. -/
theorem between_write (hreliable : channel.Reliable) (h : Between l.proto) {cmd : UInt8}
    (hcmd : cmd ≠ OtaBoot.cmdEndUpdate) (seq : UInt16) {data : List UInt8}
    (hlen : data.length ≤ 1024) : Between (l.write channel (sendFrame cmd seq data)).proto := by
  refine Link.write_dispatch (fun q _ => Between q) hreliable hlen (.inl h.hunting) h.timer ?_
    fun q _ nowMs hq => ⟨hq.incomplete, hq.hunting, hq.timer⟩
  intro q htransfer htimeout _ hrx
  have hstate : q.state = l.proto.state := congrArg Transfer.state htransfer
  obtain ⟨q', flash', more, hrun⟩ := plain_dispatch q cmd seq data l.flash
  have hopen : q.Incomplete := fun hcomplete => h.incomplete (hstate.symm.trans hcomplete)
  have htimed : q.Timed := fun hreceiving => htimeout.trans (h.timer (hstate.symm.trans hreceiving))
  have hset : TimerSet q' := dispatch_timed htimed cmd seq data _ _ _ (hrun [])
  have hmapped : (withRx q.rx <$> q.dispatch cmd seq data).run ⟨l.flash, [], []⟩ =
      (.done q', ⟨flash', [], [] ++ more⟩) := by
    rw [← dispatch_withRx]
    exact hrun []
  obtain ⟨q'', -, rfl⟩ := Faulty.exists_of_run_map hmapped
  exact ⟨_, _, hrun [], hset, dispatch_incomplete hopen hcmd seq data _ _ _ (hrun []), hrx, hset⟩

/-- Bytes none of which begins a frame leave the transfer alone. -/
theorem poll_unframed (h : Between l.proto) {bytes : List UInt8} (hbytes : Unframed bytes)
    (nowMs : UInt32) : Between (l.poll ⟨nowMs, bytes⟩).proto := by
  have hdrain (budget : Nat) (received : Bool) : ∃ received',
      l.proto.drain budget received bytes = pure (l.proto, received') := by
    induction bytes generalizing budget received with
    | nil => exact ⟨received, by rw [Protocol.drain]⟩
    | cons byte bytes ih =>
        cases budget with
        | zero => exact ⟨received, by rw [Protocol.drain]⟩
        | succ budget =>
            obtain ⟨received', hrest⟩ :=
              ih (fun b hb => hbytes b (List.mem_cons_of_mem _ hb)) budget true
            refine ⟨received', ?_⟩
            rw [Protocol.drain, Protocol.feed_unframed h.hunting (hbytes byte List.mem_cons_self),
              pure_bind, hrest]
  obtain ⟨received, hdrained⟩ := hdrain uartRxBufferSize false
  have hpoll : l.poll ⟨nowMs, bytes⟩ =
      { l with proto := l.proto.pollTail nowMs received } := by
    simp only [Link.poll, Protocol.poll, hdrained, pure_bind, Faulty.run_pure]
  rw [hpoll]
  exact ⟨pollTail_incomplete h.incomplete _ _, by rw [pollTail_rx, h.hunting],
    pollTail_timed h.timer _ _⟩

theorem polls_unframed (h : Between l.proto) {polls : List Poll}
    (hbytes : Unframed (polls.flatMap Poll.bytes)) :
    Silenced l polls ∧ Between (polls.foldl Link.poll l).proto := by
  induction polls generalizing l with
  | nil => exact ⟨trivial, h⟩
  | cons q polls ih =>
      rw [List.flatMap_cons] at hbytes
      have hfirst : Between (l.poll q).proto :=
        poll_unframed h (fun b hb => hbytes b (List.mem_append_left _ hb)) q.nowMs
      obtain ⟨hsilenced, hlast⟩ := ih hfirst fun b hb => hbytes b (List.mem_append_right _ hb)
      exact ⟨⟨fun hcomplete => absurd hcomplete h.incomplete, hsilenced⟩, hlast⟩

/-- Over a reliable channel that keeps the window the device can follow the tool. -/
theorem Channel.Punctual.obliges (hpunctual : channel.Punctual u) (hreliable : channel.Reliable) :
    Obliges channel u Between fun _ => True where
  frame frame raw hraw hcmd := by
    have hencodable := encodable_of_encode hraw
    obtain rfl := Except.ok.inj (hraw.symm.trans hencodable.encode_eq)
    have hother : UInt8.ofNat frame.cmd ≠ OtaBoot.cmdEndUpdate := by
      intro hsame
      have hvalue := congrArg UInt8.toNat hsame
      rw [UInt8.toNat_ofNat_of_lt' hencodable.cmd] at hvalue
      exact hcmd hvalue
    exact ⟨fun l h => attends_frame hreliable hpunctual h _ _ hencodable.short,
      fun l h => between_write hreliable h hother _ hencodable.short⟩
  finish seq raw hraw := by
    have hencodable := encodable_of_encode hraw
    obtain rfl := Except.ok.inj (hraw.symm.trans hencodable.encode_eq)
    exact ⟨fun l h => attends_frame hreliable hpunctual h _ _ hencodable.short, fun _ _ => trivial⟩
  trigger := by
    have hbytes (l : Link) : Unframed
        ((channel l (List.replicate 64 App.otaTriggerByte)).flatMap Poll.bytes) := by
      intro byte hbyte
      rw [(hreliable l _).intact] at hbyte
      rw [List.eq_of_mem_replicate hbyte]
      decide
    have hpolls (l : Link) (h : Between l.proto) := polls_unframed (l := l.unsent)
      ⟨h.incomplete, h.hunting, h.timer⟩ (hbytes l)
    exact ⟨fun l h => attends_of_silenced (hpunctual l _) (hpolls l h).1, fun l h => (hpolls l h).2⟩
  less _ _ := trivial

/-- What was delivered is what was written. -/
theorem delivered_of_conveyed (hreliable : channel.Reliable)
    {entries : List (List UInt8 × List UInt8)} {polls : List (List Poll)}
    (h : List.Forall₂ (fun entry polls => ∃ l, polls = channel l entry.1) entries polls) :
    polls.flatten.flatMap Poll.bytes = entries.flatMap Prod.fst := by
  induction h with
  | nil => rfl
  | @cons entry chunk entries polls hfirst _ ih =>
      obtain ⟨l, rfl⟩ := hfirst
      rw [List.flatten_cons, List.flatMap_append, (hreliable l entry.1).intact, ih,
        List.flatMap_cons]

-- the frames are known, but what they are encoded to is not looked at
attribute [local irreducible] encode

/-- A run of the tool that completes an update, on the device. -/
theorem update_on_device (hpunctual : channel.Punctual u) (hreliable : channel.Reliable)
    (hdrain : u.drain = none) (d : Device) {l' : Link} (hbetween : Between l.proto)
    (hlog : l.log = []) {bursts : Nat} {args : Args} {status : Nat}
    (hreturns : Raising.Returns (flashMain channel bursts args) l status l')
    (hcomplete : l'.proto.state = .complete) :
    ∃ polls : List Poll, polls.flatMap Poll.bytes = l'.log.flatMap Prod.fst ∧
      (attached d u [] l).run (Device.rounds (polls.map Poll.turn)) =
        { d with board := ⟨l'.flash, .reset⟩ } := by
  have hafter : Following channel d u l (fun _ => True) l' :=
    ((hpunctual.obliges hreliable).ensures_flashMain hdrain bursts args).final
      ⟨hbetween, [], [], .refl hbetween.incomplete⟩ hreturns
  obtain ⟨-, entries, polls, hfollows⟩ := hafter
  obtain ⟨sent, -, htracks⟩ := hfollows.tracks
  rw [Tracks, if_pos hcomplete] at htracks
  refine ⟨polls.flatten, ?_, htracks⟩
  rw [delivered_of_conveyed hreliable hfollows.conveyed, hfollows.log, hlog, List.nil_append]

end Reliable

end Host

/-! ## The trial -/

namespace Device

/-- The bootloader gives an image on trial one more attempt, and starts it when
nobody has sent anything in the listen window. -/
theorem run_trial {d : Device} {flash : Flash} {l : Ledger} {image : List UInt8}
    (hboard : d.board = ⟨flash, .reset⟩) (hpending : d.pending = false)
    (hl : ledgerAt flash = some l) (hstate : (l.slot l.active).state = stateTesting)
    (hcount : l.bootFailCount < maxBootFailures) (himage : l.Describes flash l.active image)
    (hcounter : counterAt flash < 2 ^ 32 - 1) {start : UInt32} {time : Nat}
    (hlate : 2000 < UInt32.ofNat time - start) :
    ∃ flash', d.run (.boot start [] :: round time []) =
        ⟨⟨flash', .app l.active⟩, App.uartInit d.hw, .start⟩ ∧
      ledgerAt flash' = some (Edit.attempt.apply l) ∧
      ∀ s : Slot, Memory.AgreeOn s.addr.toNat 491520 flash' flash := by
  obtain ⟨flash', hboot, hledger, -, hagree⟩ :=
    Board.boot_attempt false start hl hstate hcount himage hcounter
  refine ⟨flash', ?_, hledger, hagree⟩
  have hstep : d.step (.boot start []) =
      { d with board := ⟨flash', Board.booted start (.updateMode 2000 (some l.active))⟩ } := by
    simp only [step, hboard, hpending, clearRequest, hboot]
    rfl
  have hpolled : Board.polled ⟨2000, start, some l.active, protocolInit, none⟩ (UInt32.ofNat time)
      false = .app l.active := by
    have hover : (2000 : UInt32) > 0 ∧ UInt32.ofNat time - start > 2000 := ⟨by decide, hlate⟩
    have hidle : (protocolInit.pollTail (UInt32.ofNat time) false).state = .idle := rfl
    have hopen : ProtocolState.idle ≠ .complete := by decide
    simp only [Board.polled, updateVerdict, hidle, hopen, if_false, hover, and_self, if_true]
  rw [run, Transition.run_cons, ← run, hstep, run_round_silent rfl rfl, hpolled]
  rfl

/-- The trial of an image that was installed. -/
theorem run_installed {d : Device} {flash flash' : Flash} {image : List UInt8} {ver : UInt32}
    (hboard : d.board = ⟨flash', .reset⟩) (hpending : d.pending = false) (himage : Sendable image)
    (hinstalled : Installed flash image ver flash')
    (hbootable : slotLooksBootable flash' (freeSlot flash).addr = true)
    (hcounter : counterAt flash < 2 ^ 32 - 3) {start : UInt32} {time : Nat}
    (hlate : 2000 < UInt32.ofNat time - start) :
    ∃ flash'' m', d.run (.boot start [] :: round time []) =
        ⟨⟨flash'', .app (freeSlot flash)⟩, App.uartInit d.hw, .start⟩ ∧
      flash''.read (freeSlot flash).addr.toNat image.length = image ∧
      Memory.AgreeOn (freeSlot flash).other.addr.toNat 491520 flash'' flash ∧
      metadataRead flash'' = some m' ∧ m'.active = freeSlot flash ∧ m'.bootFailCount = 1 ∧
      (m'.slot (freeSlot flash)).descriptor =
        ⟨UInt32.ofNat image.length, crc32Compute image, ver, stateTesting⟩ ∧
      (m'.slot (freeSlot flash).other).descriptor =
        (ledgerOrBlank flash).slot (freeSlot flash).other := by
  have hafter := hinstalled.counter
  set l := (Edit.install (freeSlot flash) (UInt32.ofNat image.length) (crc32Compute image)
    ver).apply (ledgerOrBlank flash)
  have hslot : l.slot (freeSlot flash) =
      ⟨UInt32.ofNat image.length, crc32Compute image, ver, stateTesting⟩ :=
    slot_install _ _ _ _ _
  have hdescribes : l.Describes flash' (freeSlot flash) image :=
    ⟨himage, congrArg Descriptor.size hslot, congrArg Descriptor.crc32 hslot, hinstalled.content,
      hbootable⟩
  have hfresh : l.bootFailCount < maxBootFailures := (by decide : (0 : UInt8) < 3)
  obtain ⟨flash'', hrun, hledger, hagree⟩ := run_trial hboard hpending hinstalled.ledger
    (congrArg Descriptor.state hslot) hfresh hdescribes (by omega) hlate
  obtain ⟨m', hread, hm'⟩ := ledgerAt_eq_some hledger
  refine ⟨flash'', m', hrun, (hdescribes.congr rfl (hagree _)).content,
    (hagree _).trans hinstalled.other, hread, congrArg Ledger.active hm',
    congrArg Ledger.bootFailCount hm', ?_, ?_⟩
  · rw [← Metadata.ledger_slot, hm', slot_attempt, hslot]
  · rw [← Metadata.ledger_slot, hm', slot_attempt, slot_install_other]

/-! ## The cycle -/

/-- The session that a request opens. -/
def requested (start : UInt32) (slot : Slot) : Session :=
  ⟨otaWaitMs, start, some slot, protocolInit, none⟩

/-- A manager that was just started is between two frames. -/
theorem between_init : Host.Between protocolInit where
  incomplete := fun h => by cases h
  hunting := rfl
  timer := fun h => by cases h

/-- What the device goes through: the application hands over, the bootloader listens,
the tool sends, the bootloader starts what was sent. -/
def cycle (schedule : List (Turn App.Move)) (faults : List Fault) (start : UInt32)
    (polls : List Host.Poll) (later : UInt32) (time : Nat) : List DeviceEvent :=
  [.pass schedule faults, .boot start []] ++ rounds (polls.map Host.Poll.turn) ++
    (.boot later [] :: round time [])

/-- From a confirmed and intact application that hands over, over one run of the tool on
a channel that delivers in time, a device comes to run the file that was sent, from the
other slot, on its first attempt, where the file looks bootable there. The slot that
asked for the update is left as it was, and no request is pending. -/
theorem update_cycle {d : Device} {m : Metadata} {schedule : List (Turn App.Move)}
    {faults : List Fault} (hhands : d.handsOver (.pass schedule faults) = true)
    (hdecision : bootDecision d.board.flash = .run m)
    (hcounter : counterAt d.board.flash < 2 ^ 32 - 3) {start : UInt32} {channel : Host.Channel}
    (hreliable : channel.Reliable) (hpunctual : channel.Punctual (requested start m.active))
    (bursts : Nat) {args : Host.Args} {firmware : List UInt8} (hinfo : args.info = false)
    (hfile : args.firmware m.active.other.toByte.toNat = some firmware) (hpos : firmware ≠ [])
    (hsize : firmware.length ≤ slotSize.toNat)
    (hversion : ∀ version, args.version = some version → version < 2 ^ 32)
    (hvectors : ∀ flash : Flash, flash.read m.active.other.addr.toNat
        (Host.padded firmware).length = Host.padded firmware →
      slotLooksBootable flash m.active.other.addr = true)
    {later : UInt32} {time : Nat} (hlate : 2000 < UInt32.ofNat time - later) :
    ∃ (l' : Host.Link) (polls : List Host.Poll) (m' : Metadata),
      Raising.Returns (Host.flashMain channel bursts args)
        ⟨d.board.flash, protocolInit, [], []⟩ 0 l' ∧
      polls.flatMap Host.Poll.bytes = l'.log.flatMap Prod.fst ∧
      let d' := d.run (cycle schedule faults start polls later time)
      d'.board.mode = .app m.active.other ∧ d'.loop = .start ∧ d'.pending = false ∧
      d'.board.flash.read m.active.other.addr.toNat (Host.padded firmware).length =
        Host.padded firmware ∧
      Memory.AgreeOn m.active.addr.toNat 491520 d'.board.flash d.board.flash ∧
      metadataRead d'.board.flash = some m' ∧ m'.active = m.active.other ∧
      m'.bootFailCount = 1 ∧
      (m'.slot m.active.other).descriptor =
        ⟨UInt32.ofNat (Host.padded firmware).length, crc32Compute (Host.padded firmware),
          UInt32.ofNat (args.newVersion d.board.flash), stateTesting⟩ ∧
      (m'.slot m.active).descriptor = (m.slot m.active).descriptor := by
  have hread : metadataRead d.board.flash = some m := by
    have hjustified := bootDecision_justified d.board.flash
    rw [hdecision] at hjustified
    exact hjustified.1
  have hledger := ledgerOrBlank_of_ledgerAt (ledgerAt_of_read hread)
  have hfree : freeSlot d.board.flash = m.active.other := by
    rw [freeSlot, hread]
    rfl
  -- the tool
  have hroom : counterAt d.board.flash < 2 ^ 32 - 2 := by omega
  have hchosen : args.firmware (freeSlot d.board.flash).toByte.toNat = some firmware := by
    rw [hfree]
    exact hfile
  obtain ⟨l', hreturns, hcomplete, hinstalled⟩ := Host.returns_flashMain
    (l := ⟨d.board.flash, protocolInit, [], []⟩) hreliable rfl (.inl rfl) rfl hroom bursts hinfo
    hchosen hpos hsize hversion
  -- the request
  obtain ⟨hboard, hpending⟩ := step_handsOver hhands
  have hrests : (d.step (.pass schedule faults)).board.mode = .reset := by rw [hboard]
  have hdecided : bootDecision (d.step (.pass schedule faults)).board.flash = .run m := by
    rw [hboard]
    exact hdecision
  have hboot := step_boot_request hrests hpending hdecided start []
  rw [hboard] at hboot
  set d₁ := (d.step (.pass schedule faults)).step (.boot start []) with hd₁
  have hattached : Host.attached d₁ (requested start m.active) []
      ⟨d.board.flash, protocolInit, [], []⟩ = d₁ := by
    rw [hboot]
    rfl
  -- the transfer
  obtain ⟨polls, hpolls, htransfer⟩ := Host.update_on_device hpunctual hreliable rfl d₁
    (l := ⟨d.board.flash, protocolInit, [], []⟩) between_init rfl hreturns hcomplete
  rw [hattached] at htransfer
  -- the trial
  have hcleared : Device.pending { d₁ with board := ⟨l'.flash, .reset⟩ } = false := by
    rw [hboot]
    rfl
  obtain ⟨flash'', m', htrial, hcontent, hother, hread', hactive, hcount, hnew, hold⟩ :=
    run_installed (d := { d₁ with board := ⟨l'.flash, .reset⟩ }) rfl hcleared
      (Host.sendable_padded hpos hsize) hinstalled
      (hfree ▸ hvectors l'.flash (hfree ▸ hinstalled.content)) hcounter hlate
  rw [hfree, Slot.other_other] at hother hold
  rw [hfree] at hcontent hactive hnew
  rw [hledger, Metadata.ledger_slot] at hold
  have hrun : d.run (cycle schedule faults start polls later time) =
      ⟨⟨flash'', .app m.active.other⟩, App.uartInit d₁.hw, .start⟩ := by
    rw [cycle, run_append, run_append, ← hfree, ← htrial, ← htransfer]
    rfl
  refine ⟨l', polls, m', hreturns, hpolls, ?_⟩
  rw [hrun]
  refine ⟨rfl, rfl, ?_, hcontent, hother, hread', hactive, hcount, hnew, hold⟩
  exact hcleared

theorem update_cycle_resting :
    ∃ polls m', let d' := resting.run (cycle (heldLine 150) [] 0 polls 0 3000)
      d'.board.mode = .app .b ∧ d'.board.flash.read slotBAddr.toNat 8 = vectorsOnly ∧
        metadataRead d'.board.flash = some m' ∧ m'.active = .b ∧ m'.bootFailCount = 1 := by
  obtain ⟨m, hdecision, hactive, hcounter⟩ := aConfirmed_runs
  have hhands : resting.handsOver (.pass (heldLine 150) []) = true := by decide +kernel
  have hroom : counterAt resting.board.flash < 2 ^ 32 - 3 := by
    change counterAt (stocked vectorsOnly [] aConfirmed) < _
    omega
  have hpadded : Host.padded vectorsOnly = vectorsOnly := by decide
  have hfile : Host.inDirectory.firmware m.active.other.toByte.toNat = some vectorsOnly := rfl
  have hlate : (2000 : UInt32) < UInt32.ofNat 3000 - 0 := by decide
  obtain ⟨-, polls, m', -, -, hcycle⟩ := update_cycle hhands hdecision hroom
    Host.Channel.prompt_reliable (Host.Channel.prompt_punctual rfl) 0
    (rfl : Host.inDirectory.info = false) hfile (by decide : vectorsOnly ≠ []) (by decide)
    (fun _ h => by cases h) (fun flash h => looksBootable_vectorsOnly (hpadded ▸ h)) hlate
  refine ⟨polls, m', ?_⟩
  -- what the run computes to is not looked at
  generalize resting.run _ = d' at hcycle ⊢
  obtain ⟨hmode, -, -, hcontent, -, hread, hnow, hcount, -⟩ := hcycle
  rw [hactive] at hmode hcontent hnow
  rw [hpadded] at hcontent
  exact ⟨hmode, hcontent, hread, hnow, hcount⟩

end Device

end OtaBoot
