import Mathlib.Data.List.Forall2
import OtaBoot.Foundation.Plain
import OtaBoot.Host.FlashTool
import OtaBoot.Properties.Listening

/-!
# The link and the device

The link of the update tool has a protocol manager at its far end. The manager of a
device in update mode does the same in the same polls, one byte at a time and with
the tests of `update_mode` after each of them.
-/

namespace OtaBoot

open Storage Faulty

/-! ## Nothing disturbs the flash -/

section Plain

theorem plain_flashErasePage (address : UInt32) : Plain (flashErasePage address) := by
  unfold flashErasePage
  refine .bind (.note _) fun _ => .ite (.pure _) (.ite (.pure _) ?_)
  refine .bind (.perform _) fun _ => .ite (.pure _) (.bind .read fun _ => ?_)
  exact .ite (.pure _) (.pure _)

theorem plain_programLoop (address : Nat) (data : List UInt8) :
    Plain (programLoop address data) := by
  induction address, data using programLoop.induct with
  | case1 address b₀ b₁ b₂ b₃ b₄ b₅ b₆ b₇ rest ih =>
      rw [programLoop]
      exact .bind (.perform _) fun _ => .ite (.pure _) ih
  | case2 address data h =>
      unfold programLoop
      split
      · exact absurd rfl (h _ _ _ _ _ _ _ _ _)
      · exact .pure _

theorem plain_flashWrite (address : UInt32) (data : List UInt8) : Plain (flashWrite address data) := by
  unfold flashWrite
  refine .bind (.note _) fun _ => .ite (.pure _) (.ite (.pure _) (.ite (.pure _) ?_))
  refine .bind (plain_programLoop _ _) fun _ => .ite (.pure _) (.bind .read fun _ => ?_)
  exact .ite (.pure _) (.pure _)

theorem plain_metadataWrite (src : Metadata) : Plain (metadataWrite src) := by
  unfold metadataWrite
  refine .bind .read fun flash => .bind (plain_flashErasePage _) fun _ => .ite (.pure _) ?_
  refine .bind (plain_flashWrite _ _) fun _ => .ite (.pure _) (.bind .read fun flash' => ?_)
  split
  · exact .pure _
  · exact .ite (.pure _) (.pure _)

variable (p : Protocol)

theorem plain_onGetInfo (seq : UInt16) : Plain (p.onGetInfo seq) :=
  .bind .read fun _ => .pure _

theorem plain_onStartUpdate (seq : UInt16) (data : List UInt8) : Plain (p.onStartUpdate seq data) := by
  unfold Protocol.onStartUpdate
  refine .ite (.pure _) (.ite (.pure _) (.bind .read fun _ => .ite (.pure _) (.ite (.pure _) ?_)))
  exact .bind (plain_metadataWrite _) fun _ => .ite (.pure _) (.pure _)

theorem plain_onData (seq : UInt16) (data : List UInt8) : Plain (p.onData seq data) := by
  refine .ite (.pure _) (.ite (.pure _) (.ite (.pure _) (.ite (.pure _) (.ite (.pure _) ?_))))
  -- the page is erased, or it was before
  refine .ite (.bind (plain_flashErasePage _) fun st => ?_) (.bind (.pure _) fun st => ?_)
  all_goals
    refine .ite (.pure _) (.bind (plain_flashWrite _ _) fun st' => ?_)
    exact .ite (.pure _) (.pure _)

theorem plain_onEndUpdate (seq : UInt16) : Plain (p.onEndUpdate seq) := by
  unfold Protocol.onEndUpdate
  refine .ite (.pure _) (.ite (.pure _) (.bind .read fun _ => .ite (.pure _) ?_))
  exact .bind (plain_metadataWrite _) fun _ => .ite (.pure _) (.pure _)

theorem plain_dispatch (cmd : UInt8) (seq : UInt16) (data : List UInt8) :
    Plain (p.dispatch cmd seq data) := by
  refine .ite (plain_onGetInfo _ _) (.ite (plain_onStartUpdate _ _ _) ?_)
  exact .ite (plain_onData _ _ _) (.ite (plain_onEndUpdate _ _) (.ite (.pure _) (.pure _)))

theorem plain_feed (byte : UInt8) : Plain (p.feed byte) := by
  unfold Protocol.feed
  cases (p.rx.feed byte).2 with
  | pending | overlong | badCrc => exact .pure _
  | frame cmd seq data => exact plain_dispatch _ cmd seq data

theorem plain_drain (budget : Nat) (received : Bool) (bytes : List UInt8) :
    Plain (p.drain budget received bytes) := by
  induction bytes generalizing p budget received with
  | nil =>
      rw [Protocol.drain]
      exact .pure _
  | cons byte bytes ih =>
      cases budget with
      | zero =>
          rw [Protocol.drain]
          exact .pure _
      | succ budget =>
          rw [Protocol.drain]
          exact .bind (plain_feed p byte) fun p' => ih p' budget true

end Plain

/-! ## What was sent makes no difference -/

section Sent

/-- A manager that has sent more. -/
def Protocol.ahead (sent : List UInt8) (p : Protocol) : Protocol := { p with tx := sent ++ p.tx }

variable (sent : List UInt8) (p : Protocol)

theorem ahead_send (cmd : UInt8) (seq : UInt16) (data : List UInt8) :
    (p.send cmd seq data).ahead sent = (p.ahead sent).send cmd seq data := by
  simp [Protocol.ahead, Protocol.send]

theorem ahead_sendAck (seq : UInt16) : (p.sendAck seq).ahead sent = (p.ahead sent).sendAck seq :=
  ahead_send sent p _ _ _

theorem ahead_sendNack (seq : UInt16) (err : UInt8) :
    (p.sendNack seq err).ahead sent = (p.ahead sent).sendNack seq err :=
  ahead_send sent p _ _ _

theorem ahead_abortTransfer : p.abortTransfer.ahead sent = (p.ahead sent).abortTransfer := rfl

/-- No command handler looks at what was sent. -/
theorem dispatch_ahead (cmd : UInt8) (seq : UInt16) (data : List UInt8) :
    (p.ahead sent).dispatch cmd seq data = Protocol.ahead sent <$> p.dispatch cmd seq data := by
  have hinfo (p : Protocol) :
      (p.ahead sent).onGetInfo seq = Protocol.ahead sent <$> p.onGetInfo seq := by
    simp only [Protocol.onGetInfo, map_bind, map_pure, ahead_send]
  have hstart (p : Protocol) : (p.ahead sent).onStartUpdate seq data =
      Protocol.ahead sent <$> p.onStartUpdate seq data := by
    simp only [Protocol.onStartUpdate, map_bind, map_pure, apply_ite (Protocol.ahead sent <$> ·),
      ahead_sendNack, ahead_sendAck]
    rfl
  have hdata (p : Protocol) :
      (p.ahead sent).onData seq data = Protocol.ahead sent <$> p.onData seq data := by
    simp only [Protocol.onData, map_bind, map_pure, apply_ite (Protocol.ahead sent <$> ·),
      ahead_sendNack, ahead_sendAck, ahead_abortTransfer]
    rfl
  have hcomplete (p : Protocol) : Protocol.ahead sent { p.sendAck seq with state := .complete } =
      { (p.ahead sent).sendAck seq with state := .complete } := by
    simp [Protocol.ahead, Protocol.sendAck, Protocol.send]
  have hend (p : Protocol) :
      (p.ahead sent).onEndUpdate seq = Protocol.ahead sent <$> p.onEndUpdate seq := by
    simp only [Protocol.onEndUpdate, map_bind, map_pure, apply_ite (Protocol.ahead sent <$> ·),
      ahead_sendNack, ahead_abortTransfer, hcomplete]
    rfl
  simp only [Protocol.dispatch, apply_ite (Protocol.ahead sent <$> ·), map_pure, ahead_sendAck,
    ahead_sendNack, ahead_abortTransfer, ← hinfo, ← hstart, ← hdata, ← hend]
  rfl

theorem feed_ahead (byte : UInt8) :
    (p.ahead sent).feed byte = Protocol.ahead sent <$> p.feed byte := by
  change Protocol.handle _ (p.rx.feed byte).2 = _ <$> Protocol.handle _ (p.rx.feed byte).2
  cases (p.rx.feed byte).2 with
  | pending | overlong => rfl
  | badCrc seq =>
      simp only [Protocol.handle, map_pure, ahead_sendNack]
      rfl
  | frame cmd seq data =>
      simp only [Protocol.handle, ← dispatch_ahead]
      rfl

theorem drain_ahead (budget : Nat) (received : Bool) (bytes : List UInt8) :
    (p.ahead sent).drain budget received bytes =
      (fun out => (out.1.ahead sent, out.2)) <$> p.drain budget received bytes := by
  induction bytes generalizing p budget received with
  | nil =>
      rw [Protocol.drain, Protocol.drain]
      rfl
  | cons byte bytes ih =>
      cases budget with
      | zero => rfl
      | succ budget =>
          simp only [Protocol.drain, feed_ahead, map_bind, bind_map_left]
          exact bind_congr fun p' => ih p' budget true

theorem pollTail_ahead (nowMs : UInt32) (received : Bool) :
    (p.ahead sent).pollTail nowMs received = (p.pollTail nowMs received).ahead sent := by
  unfold Protocol.pollTail
  simp only [apply_ite (Protocol.ahead sent)]
  rfl

end Sent

/-! ## One poll -/

/-- The drain of a poll, byte after byte. -/
theorem Board.run_drain {flash flash' : Flash} {u : Session} (nowMs : UInt32) {budget : Nat}
    {received : Bool} {bytes : List UInt8} {out : Protocol × Bool}
    {calls calls' : List (Flash × FlashCall)}
    (hrun : (u.proto.drain budget received bytes).run ⟨flash, [], calls⟩ =
      (.done out, ⟨flash', [], calls'⟩)) :
    ∃ budget', (Board.mk flash (.update { u with drain := some (nowMs, budget, received) })).run
        (bytes.map (.byte · [])) =
      ⟨flash', .update { u with proto := out.1, drain := some (nowMs, budget', out.2) }⟩ := by
  induction bytes generalizing flash u budget received calls with
  | nil =>
      rw [Protocol.drain] at hrun
      cases hrun
      exact ⟨budget, rfl⟩
  | cons byte bytes ih =>
      cases budget with
      | zero =>
          have hrest : (u.proto.drain 0 received bytes).run ⟨flash, [], calls⟩ =
              (.done out, ⟨flash', [], calls'⟩) := by
            rw [← hrun]
            cases bytes <;> rw [Protocol.drain, Protocol.drain]
          exact ih hrest
      | succ budget =>
          obtain ⟨p, flash₁, more, hfeed⟩ := plain_feed u.proto byte flash
          rw [Protocol.drain, run_bind_done (hfeed calls)] at hrun
          have hstep : Board.step
              ⟨flash, .update { u with drain := some (nowMs, budget + 1, received) }⟩
              (.byte byte []) =
                ⟨flash₁, .update { u with proto := p, drain := some (nowMs, budget, true) }⟩ := by
            simp only [Board.step, hfeed, Board.settle]
          rw [List.map_cons, Board.run_cons, hstep]
          exact ih (u := { u with proto := p }) hrun

/-- What `update_mode` makes of what a poll has left. -/
def Board.judged (u : Session) (proto : Protocol) (nowMs : UInt32) : Mode :=
  match updateVerdict proto u.limitMs u.start nowMs with
  | .keepListening => .update { u with proto, drain := none }
  | .restarts => .reset
  | .returns =>
      match u.next with
      | some slot => .app slot
      | none => .reset

namespace Host

variable {d : Device} {u : Session} {l : Link}

/-- The device in update mode, with the manager of a link, which has sent something
before. -/
def attached (d : Device) (u : Session) (sent : List UInt8) (l : Link) : Device :=
  { d with board := ⟨l.flash, .update { u with proto := l.proto.ahead sent }⟩ }

/-- The turn of the loop of `update_mode` that makes a poll. -/
def Poll.turn (q : Poll) : Nat × List UInt8 := (q.nowMs.toNat, q.bytes)

/-- One turn of the loop is one poll of the link, and the tests behind it. -/
theorem run_round_attached (hdrain : u.drain = none) (sent : List UInt8) (q : Poll) :
    (attached d u sent l).run (Device.round q.turn.1 q.turn.2) =
      (attached d u sent l).follow
        ⟨(l.poll q).flash, Board.judged u ((l.poll q).proto.ahead sent) q.nowMs⟩ := by
  obtain ⟨out, flash, more, hdrained⟩ := plain_drain l.proto uartRxBufferSize false q.bytes l.flash
  have hpoll : l.poll q = { l with flash, proto := out.1.pollTail q.nowMs out.2 } := by
    rw [Link.poll, Protocol.poll, run_bind_done (hdrained [])]
    rfl
  have hahead : ((l.proto.ahead sent).drain uartRxBufferSize false q.bytes).run ⟨l.flash, [], []⟩ =
      (.done (out.1.ahead sent, out.2), ⟨flash, [], [] ++ more⟩) := by
    rw [drain_ahead, map_eq_pure_bind, run_bind_done (hdrained [])]
    rfl
  obtain ⟨budget', hbytes⟩ :=
    Board.run_drain (u := { u with proto := l.proto.ahead sent }) q.nowMs hahead
  have hstart : (attached d u sent l).step (.poll q.nowMs) = { d with
      board := ⟨l.flash, .update { u with
        proto := l.proto.ahead sent
        drain := some (q.nowMs, uartRxBufferSize, false) }⟩ } := by
    simp only [attached, Device.step, Board.step, hdrain]
  rw [hpoll, ← pollTail_ahead, Poll.turn, Device.round, UInt32.ofNat_toNat, Device.run,
    Transition.run_cons, hstart, ← Device.run, Device.run_append, Device.run_bytes, hbytes]
  rfl

/-- No update is complete, and the listen window is open or a transfer is under way. -/
theorem judged_open {p : Protocol} {nowMs : UInt32} (hopen : p.state ≠ .complete)
    (hwindow : p.state = .idle → nowMs - u.start ≤ u.limitMs) :
    Board.judged u p nowMs = .update { u with proto := p, drain := none } := by
  have hstay : ¬ (u.limitMs > 0 ∧ p.state = .idle ∧ nowMs - u.start > u.limitMs) :=
    fun h => UInt32.not_lt.mpr (hwindow h.2.1) h.2.2
  rw [Board.judged, updateVerdict, if_neg hopen, if_neg hstay]

theorem judged_complete {p : Protocol} (hcomplete : p.state = .complete) (nowMs : UInt32) :
    Board.judged u p nowMs = .reset := by
  rw [Board.judged, updateVerdict, if_pos hcomplete]

/-! ## Poll after poll -/

/-- Where the device is: it has the manager of the link, or it is about to boot
because the update is complete. -/
def Tracks (d : Device) (u : Session) (sent : List UInt8) (l : Link) (d' : Device) : Prop :=
  if l.proto.state = .complete then d' = { d with board := ⟨l.flash, .reset⟩ }
  else d' = attached d u sent l

/-- No poll brings anything once the update is complete, and none ends after the
listen window with nothing under way. -/
def Attends (u : Session) : Link → List Poll → Prop
  | _, [] => True
  | l, q :: polls =>
      (l.proto.state = .complete → q.bytes = []) ∧
        ((l.poll q).proto.state = .idle → q.nowMs - u.start ≤ u.limitMs) ∧
        Attends u (l.poll q) polls

/-- A manager that has completed an update does nothing without a byte. -/
theorem Link.poll_complete (hcomplete : l.proto.state = .complete) (nowMs : UInt32) :
    l.poll ⟨nowMs, []⟩ = l := by
  have hnot : l.proto.state ≠ .receiving := by
    rw [hcomplete]
    decide
  have hidle (h : False → nowMs - l.proto.lastActivityMs ≤ timeoutDataMs) :=
    Link.poll_idle (fun hreceiving => absurd hreceiving hnot) hnot h
  exact hidle False.elim

/-- A device that is about to boot has no loop to make turns of. -/
theorem run_round_reset (hreset : d.board.mode = .reset) (time : Nat) (bytes : List UInt8) :
    d.run (Device.round time bytes) = d := by
  have hpoll (nowMs : UInt32) : d.step (.poll nowMs) = d := by
    simp only [Device.step, Board.step, hreset]
  have hend : d.step .pollEnd = d := by simp only [Device.step, hreset]
  have hbytes : d.run (bytes.map (.byte · [])) = d := by
    induction bytes with
    | nil => rfl
    | cons byte bytes ih =>
        have hbyte : d.step (.byte byte []) = d := by simp only [Device.step, Board.step, hreset]
        rw [List.map_cons, Device.run, Transition.run_cons, hbyte]
        exact ih
  rw [Device.round, Device.run, Transition.run_cons, hpoll, ← Device.run, Device.run_append, hbytes]
  exact hend

theorem Tracks.poll {sent : List UInt8} {d' : Device} (h : Tracks d u sent l d')
    (hdrain : u.drain = none) {q : Poll} (hsilent : l.proto.state = .complete → q.bytes = [])
    (hwindow : (l.poll q).proto.state = .idle → q.nowMs - u.start ≤ u.limitMs) :
    Tracks d u sent (l.poll q) (d'.run (Device.round q.turn.1 q.turn.2)) := by
  unfold Tracks at h
  split at h
  next hcomplete =>
    obtain ⟨nowMs, bytes⟩ := q
    obtain rfl : bytes = [] := hsilent hcomplete
    subst h
    rw [Link.poll_complete hcomplete, run_round_reset rfl, Tracks, if_pos hcomplete]
  next hopen =>
    subst h
    rw [run_round_attached hdrain, Tracks]
    split
    next hcomplete =>
      rw [judged_complete (p := (l.poll q).proto.ahead sent) hcomplete]
      rfl
    next hopen' =>
      rw [judged_open (p := (l.poll q).proto.ahead sent) hopen' hwindow, ← hdrain]
      rfl

theorem Tracks.polls {sent : List UInt8} {d' : Device} (h : Tracks d u sent l d')
    (hdrain : u.drain = none) {polls : List Poll} (hattends : Attends u l polls) :
    Tracks d u sent (polls.foldl Link.poll l)
      (d'.run (Device.rounds (polls.map Poll.turn))) := by
  induction polls generalizing l d' with
  | nil => exact h
  | cons q polls ih =>
      obtain ⟨hsilent, hwindow, hrest⟩ := hattends
      rw [List.map_cons, Device.rounds, List.flatMap_cons, Device.run_append, List.foldl_cons]
      exact ih (h.poll hdrain hsilent hwindow) hrest

/-! ## Write after write -/

/-- How a link came about: what was written since the start, with the replies, and
what the channel made of it; and the device that made the same turns. -/
structure Follows (channel : Channel) (d : Device) (u : Session) (start l : Link)
    (entries : List (List UInt8 × List UInt8)) (polls : List (List Poll)) : Prop where
  log : l.log = start.log ++ entries
  conveyed : List.Forall₂ (fun entry polls => ∃ l, polls = channel l entry.1) entries polls
  tracks : ∃ sent, sent ++ l.proto.tx = start.proto.tx ++ entries.flatMap Prod.snd ∧
    Tracks d u sent l
      ((attached d u [] start).run (Device.rounds (polls.flatten.map Poll.turn)))

section Follows

variable {channel : Channel} {start : Link} {entries : List (List UInt8 × List UInt8)}
  {polls : List (List Poll)}

theorem Follows.refl (hopen : l.proto.state ≠ .complete) : Follows channel d u l l [] [] where
  log := (List.append_nil _).symm
  conveyed := .nil
  tracks := by
    refine ⟨[], (List.append_nil _).symm, ?_⟩
    rw [Tracks, if_neg hopen]
    rfl

/-- What is left to be read does not matter. -/
theorem Follows.keep (h : Follows channel d u start l entries polls) (inbox : List UInt8) :
    Follows channel d u start { l with inbox } entries polls :=
  ⟨h.log, h.conveyed, h.tracks⟩

/-- A link before a write: nothing was sent yet. -/
def Link.unsent (l : Link) : Link := { l with proto := { l.proto with tx := [] } }

theorem Tracks.unsent {sent : List UInt8} {d' : Device} (h : Tracks d u sent l d') :
    Tracks d u (sent ++ l.proto.tx) l.unsent d' := by
  unfold Tracks at h ⊢
  split at h
  next hcomplete =>
    rw [if_pos (show l.unsent.proto.state = .complete from hcomplete)]
    exact h
  next hopen =>
    rw [if_neg (show ¬ l.unsent.proto.state = .complete from hopen), h]
    simp [attached, Protocol.ahead, Link.unsent]

theorem Follows.write (h : Follows channel d u start l entries polls) (hdrain : u.drain = none)
    {raw : List UInt8} (hattends : Attends u l.unsent (channel l raw)) :
    Follows channel d u start (l.write channel raw)
      (entries ++ [(raw, (l.write channel raw).proto.tx)]) (polls ++ [channel l raw]) := by
  obtain ⟨sent, hsent, htracks⟩ := h.tracks
  refine ⟨?_, List.rel_append h.conveyed (.cons ⟨l, rfl⟩ .nil), sent ++ l.proto.tx, ?_, ?_⟩
  · rw [Link.log_write, h.log, List.append_assoc]
  · rw [hsent, List.flatMap_append, List.append_assoc]
    simp
  · have hwritten := htracks.unsent.polls hdrain hattends
    rw [List.flatten_append, List.flatten_singleton, List.map_append, Device.rounds,
      List.flatMap_append, Device.run_append]
    exact hwritten

end Follows

end Host

end OtaBoot
