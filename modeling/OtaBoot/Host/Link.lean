import OtaBoot.Host.Frame

/-!
# The link

The two ends of a link: the protocol manager of a board, and the bytes it has
sent that the host has not read yet. A channel decides in which polls of the
manager the bytes of the host arrive. However it spreads a frame over polls, the
manager does what the frame asks for.
-/

namespace OtaBoot.Host

open Storage LittleEndian

/-- One call of `protocol_poll`: its time, and the bytes that are there for it. -/
structure Poll where
  nowMs : UInt32
  bytes : List UInt8
  deriving DecidableEq, Repr

/-- Both ends, and what was written so far with what was replied. -/
structure Link where
  flash : Flash
  proto : Protocol
  inbox : List UInt8
  log : List (List UInt8 × List UInt8)

/-- In which polls the bytes that the host writes arrive. -/
abbrev Channel := Link → List UInt8 → List Poll

/-- The board polls once; its flash operations succeed. -/
def Link.poll (l : Link) (poll : Poll) : Link :=
  match (l.proto.poll poll.nowMs poll.bytes).run ⟨l.flash, [], []⟩ with
  | (.done proto, w) => { l with flash := w.state, proto }
  | (.cut, w) => { l with flash := w.state }

/-- `_write`: the bytes arrive, and what the board replies can be read. -/
def Link.write (channel : Channel) (l : Link) (raw : List UInt8) : Link :=
  let l' := (channel l raw).foldl Link.poll { l with proto := { l.proto with tx := [] } }
  { l' with inbox := l.inbox ++ l'.proto.tx, log := l.log ++ [(raw, l'.proto.tx)] }

/-- No poll finds the inactivity timer expired. Before the first byte the timer
runs only if a transfer is under way. -/
def InTime (underWay : Prop) (lastMs : UInt32) : List Poll → Prop
  | [] => True
  | poll :: polls =>
      if poll.bytes = [] then
        (underWay → poll.nowMs - lastMs ≤ timeoutDataMs) ∧ InTime underWay lastMs polls
      else InTime True poll.nowMs polls

/-- The polls bring all of the bytes, in order, in time, and no more at once than
a poll drains. -/
structure Delivers (p : Protocol) (raw : List UInt8) (polls : List Poll) : Prop where
  intact : polls.flatMap Poll.bytes = raw
  drained : ∀ poll ∈ polls, poll.bytes.length ≤ uartRxBufferSize
  inTime : InTime (p.state = .receiving) p.lastActivityMs polls

/-- The channel delivers whatever is written. -/
def Channel.Reliable (channel : Channel) : Prop :=
  ∀ l raw, Delivers l.proto raw (channel l raw)

/-- No poll comes without a byte. -/
theorem inTime_of_nonempty {underWay : Prop} {lastMs : UInt32} {polls : List Poll}
    (h : ∀ poll ∈ polls, poll.bytes ≠ []) : InTime underWay lastMs polls := by
  induction polls generalizing underWay lastMs with
  | nil => trivial
  | cons poll polls ih =>
      rw [InTime, if_neg (h poll List.mem_cons_self)]
      exact ih fun poll hpoll => h poll (List.mem_cons_of_mem _ hpoll)

/-- One byte a poll, all at the same time. -/
def bytePolls (nowMs : UInt32) (raw : List UInt8) : List Poll := raw.map fun b => ⟨nowMs, [b]⟩

theorem delivers_bytePolls (p : Protocol) (nowMs : UInt32) (raw : List UInt8) :
    Delivers p raw (bytePolls nowMs raw) := by
  refine ⟨?_, fun poll hpoll => ?_, inTime_of_nonempty fun poll hpoll => ?_⟩
  · induction raw with
    | nil => rfl
    | cons b raw ih => exact congrArg (b :: ·) ih
  all_goals
    obtain ⟨b, -, rfl⟩ := List.mem_map.mp hpoll
    first | exact (by decide : 1 ≤ uartRxBufferSize) | exact List.cons_ne_nil _ _

/-- One byte a poll. -/
def Channel.bytewise : Channel := fun l raw => raw.map fun b => ⟨l.proto.lastActivityMs, [b]⟩

theorem Channel.bytewise_reliable : Channel.bytewise.Reliable :=
  fun l raw => delivers_bytePolls l.proto l.proto.lastActivityMs raw

/-- The board has carried out an action, and hunts for the next frame. -/
structure Link.CarriedOut (l : Link) (a : Action) (l' : Link) : Prop where
  flash : l'.flash = a.image l.flash l.proto.toTransfer
  transfer : l'.proto.toTransfer = a.success l.flash l.proto.toTransfer
  hunting : l'.proto.rx.state = .magic0
  reply : ∀ seq, a.acks = some seq → l'.proto.tx = l.proto.tx ++ sendFrame OtaBoot.rspAck seq []
  timeout : l'.proto.timeoutMs = a.timeoutMs l.proto.timeoutMs
  inbox : l'.inbox = l.inbox
  log : l'.log = l.log

/-! ## Polls -/

section Polls

variable {l : Link} {p : Protocol} {rx rx' : Receiver} {bytes data : List UInt8}
  {last cmd : UInt8} {seq : UInt16} {a : Action}

/-- The timer is set as for a transfer, if there is one. -/
def TimerSet (p : Protocol) : Prop := p.state = .receiving → p.timeoutMs = timeoutDataMs

theorem TimerSet.init : TimerSet protocolInit := fun h => absurd h init_not_receiving

/-- Without a byte nothing happens. -/
theorem pollTail_idle {underWay : Prop} {nowMs : UInt32} (htimer : TimerSet p)
    (hunderWay : p.state = .receiving → underWay)
    (hinTime : underWay → nowMs - p.lastActivityMs ≤ timeoutDataMs) :
    p.pollTail nowMs false = p := by
  unfold Protocol.pollTail
  rw [if_neg Bool.false_ne_true]
  split
  next hstate =>
    have hle := hinTime (hunderWay hstate)
    rw [htimer hstate, if_neg (UInt32.not_lt.mpr hle)]
  next => rfl

theorem Link.poll_idle {underWay : Prop} {nowMs : UInt32} (htimer : TimerSet l.proto)
    (hunderWay : l.proto.state = .receiving → underWay)
    (hinTime : underWay → nowMs - l.proto.lastActivityMs ≤ timeoutDataMs) :
    l.poll ⟨nowMs, []⟩ = l := by
  change { l with flash := l.flash, proto := l.proto.pollTail nowMs false } = l
  rw [pollTail_idle htimer hunderWay hinTime]

/-- A poll in the middle of a frame. -/
theorem Link.poll_absorbs (nowMs : UInt32) (hbytes : bytes ≠ [])
    (h : l.proto.rx.Absorbs bytes rx) (hbudget : bytes.length ≤ uartRxBufferSize) :
    l.poll ⟨nowMs, bytes⟩ =
      { l with proto := { l.proto with rx, lastActivityMs := nowMs } } := by
  have hdrain := drain_absorbs [] false h hbudget
  rw [List.append_nil, List.isEmpty_eq_false_iff.mpr hbytes] at hdrain
  simp only [Link.poll, Protocol.poll, hdrain, Protocol.drain]
  rfl

/-- A poll that brings the last byte of a frame ends with what that byte did. -/
theorem Link.poll_feed (nowMs : UInt32) (h : l.proto.rx.Absorbs bytes rx)
    (hbudget : bytes.length + 1 ≤ uartRxBufferSize) {w : World Flash FlashCall}
    (hfeed : (({ l.proto with rx } : Protocol).feed last).run ⟨l.flash, [], []⟩ = (.done p, w)) :
    l.poll ⟨nowMs, bytes ++ [last]⟩ =
      { l with flash := w.state, proto := { p with lastActivityMs := nowMs } } := by
  obtain ⟨budget, hrest⟩ : ∃ rest, uartRxBufferSize - bytes.length = rest + 1 :=
    ⟨uartRxBufferSize - bytes.length - 1, by omega⟩
  have hdrain := drain_absorbs [last] false h (by omega : bytes.length ≤ uartRxBufferSize)
  rw [hrest] at hdrain
  simp only [Protocol.drain] at hdrain
  have hdrained : (l.proto.drain uartRxBufferSize false (bytes ++ [last])).run ⟨l.flash, [], []⟩ =
      (.done (p, true), w) := by
    rw [hdrain]
    refine (Faulty.run_bind_done hfeed).trans ?_
    rfl
  have hpoll : (l.proto.poll nowMs (bytes ++ [last])).run ⟨l.flash, [], []⟩ =
      (.done { p with lastActivityMs := nowMs }, w) := by
    refine (Faulty.run_bind_done hdrained).trans ?_
    rfl
  rw [Link.poll, hpoll]

/-- Polls without a byte change nothing. -/
theorem Link.polls_idle {underWay : Prop} {polls : List Poll} (htimer : TimerSet l.proto)
    (hunderWay : l.proto.state = .receiving → underWay)
    (hempty : polls.flatMap Poll.bytes = [])
    (hinTime : InTime underWay l.proto.lastActivityMs polls) : polls.foldl Link.poll l = l := by
  induction polls with
  | nil => rfl
  | cons poll polls ih =>
      obtain ⟨nowMs, chunk⟩ := poll
      rw [List.flatMap_cons, List.append_eq_nil_iff] at hempty
      obtain ⟨rfl, hempty⟩ : chunk = [] ∧ _ := hempty
      rw [InTime, if_pos rfl] at hinTime
      rw [List.foldl_cons, Link.poll_idle htimer hunderWay hinTime.1]
      exact ih hempty hinTime.2

/-- Polls that bring the rest of a frame end with what its last byte did, whatever
was the time of the byte before. -/
theorem Link.polls_feed (post : Protocol → Flash → Prop) {underWay : Prop} {polls : List Poll}
    (h : l.proto.rx.Absorbs bytes rx) (hintact : polls.flatMap Poll.bytes = bytes ++ [last])
    (hdrained : ∀ poll ∈ polls, poll.bytes.length ≤ uartRxBufferSize)
    (hinTime : InTime underWay l.proto.lastActivityMs polls)
    (hunderWay : l.proto.state = .receiving → underWay) (htimer : TimerSet l.proto)
    (hfeed : ∀ nowMs, ∃ q w, (({ l.proto with rx, lastActivityMs := nowMs } : Protocol).feed
      last).run ⟨l.flash, [], []⟩ = (.done q, w) ∧ TimerSet q ∧ post q w.state)
    (hpost : ∀ q flash nowMs, post q flash → post { q with lastActivityMs := nowMs } flash) :
    post (polls.foldl Link.poll l).proto (polls.foldl Link.poll l).flash ∧
      (polls.foldl Link.poll l).inbox = l.inbox ∧ (polls.foldl Link.poll l).log = l.log := by
  induction polls generalizing l bytes underWay with
  | nil => simp at hintact
  | cons poll polls ih =>
      obtain ⟨nowMs, chunk⟩ := poll
      have hbudget : chunk.length ≤ uartRxBufferSize := hdrained _ List.mem_cons_self
      have hdrained' : ∀ poll ∈ polls, poll.bytes.length ≤ uartRxBufferSize :=
        fun poll hpoll => hdrained poll (List.mem_cons_of_mem _ hpoll)
      change chunk ++ polls.flatMap Poll.bytes = _ at hintact
      rw [List.foldl_cons]
      -- a poll without a byte leaves the link as it is
      by_cases hchunk : chunk = []
      · subst hchunk
        rw [InTime, if_pos rfl] at hinTime
        rw [Link.poll_idle htimer hunderWay hinTime.1]
        exact ih h hintact hdrained' hinTime.2 hunderWay htimer hfeed
      rw [InTime, if_neg hchunk] at hinTime
      have hwithin (rest : List UInt8) (hbytes : bytes = chunk ++ rest)
          (hrest : polls.flatMap Poll.bytes = rest ++ [last]) :
          post (polls.foldl Link.poll (l.poll ⟨nowMs, chunk⟩)).proto
            (polls.foldl Link.poll (l.poll ⟨nowMs, chunk⟩)).flash ∧
          (polls.foldl Link.poll (l.poll ⟨nowMs, chunk⟩)).inbox = l.inbox ∧
          (polls.foldl Link.poll (l.poll ⟨nowMs, chunk⟩)).log = l.log := by
        rw [hbytes] at h
        obtain ⟨mid, hfront, hback⟩ := h.split
        rw [Link.poll_absorbs nowMs hchunk hfront hbudget]
        exact ih (l := { l with proto := { l.proto with rx := mid, lastActivityMs := nowMs } })
          hback hrest hdrained' hinTime (fun _ => trivial) htimer hfeed
      -- the poll ends within the frame, or it brings the last byte
      rcases List.append_eq_append_iff.mp hintact with ⟨rest, hbytes, hrest⟩ | ⟨rest, hbytes, hrest⟩
      · exact hwithin rest hbytes hrest
      cases rest with
      | nil =>
          rw [List.append_nil] at hbytes
          refine hwithin [] ?_ hrest.symm
          rw [hbytes, List.append_nil]
      | cons byte rest =>
          obtain ⟨rfl, htail⟩ := List.cons.inj hrest
          obtain ⟨rfl, hempty⟩ : rest = [] ∧ polls.flatMap Poll.bytes = [] :=
            List.append_eq_nil_iff.mp htail.symm
          subst hbytes
          obtain ⟨q, w, hrun, hset, hq⟩ := hfeed l.proto.lastActivityMs
          rw [Link.poll_feed nowMs h (by simpa using hbudget) hrun,
            Link.polls_idle hset (fun _ => trivial) hempty hinTime]
          exact ⟨hpost _ _ _ hq, rfl, rfl⟩

/-- Polls that bring the rest of a frame carry it out, once. -/
theorem Link.polls_frame {underWay : Prop} {polls : List Poll} (h : l.proto.rx.Absorbs bytes rx)
    (hlast : rx.feed last = (rx', .frame cmd seq data)) (hhunting : rx'.state = .magic0)
    (hintact : polls.flatMap Poll.bytes = bytes ++ [last])
    (hdrained : ∀ poll ∈ polls, poll.bytes.length ≤ uartRxBufferSize)
    (hinTime : InTime underWay l.proto.lastActivityMs polls)
    (hunderWay : l.proto.state = .receiving → underWay) (htimer : TimerSet l.proto)
    (hacts : ∀ q : Protocol, q.toTransfer = l.proto.toTransfer →
      Acts .calm l.flash q a (q.dispatch cmd seq data))
    (hready : a.Ready l.flash l.proto.toTransfer)
    (hafter : (a.success l.flash l.proto.toTransfer).state = .receiving →
      a.timeoutMs l.proto.timeoutMs = timeoutDataMs) :
    l.CarriedOut a (polls.foldl Link.poll l) := by
  let post : Protocol → Flash → Prop := fun q flash =>
    flash = a.image l.flash l.proto.toTransfer ∧
    q.toTransfer = a.success l.flash l.proto.toTransfer ∧ q.rx.state = .magic0 ∧
    (∀ seq, a.acks = some seq → q.tx = l.proto.tx ++ sendFrame OtaBoot.rspAck seq []) ∧
    q.timeoutMs = a.timeoutMs l.proto.timeoutMs
  have hfeed (nowMs : UInt32) : ∃ q w, (({ l.proto with rx, lastActivityMs := nowMs } :
      Protocol).feed last).run ⟨l.flash, [], []⟩ = (.done q, w) ∧ TimerSet q ∧ post q w.state := by
    obtain ⟨q, w, hrun, hstate, htransfer, hrx, htx, htimeout⟩ :=
      (hacts { l.proto with rx := rx', lastActivityMs := nowMs } rfl).run_calm hready
    refine ⟨q, w, ?_, ?_, hstate, htransfer, (congrArg Receiver.state hrx).trans hhunting, htx,
      htimeout⟩
    · rw [Protocol.feed]
      simp only [hlast]
      exact hrun
    · intro hreceiving
      rw [htransfer] at hreceiving
      exact htimeout.trans (hafter hreceiving)
  obtain ⟨⟨hflash, htransfer, hrx, hreply, htimeout⟩, hinbox, hlog⟩ := Link.polls_feed post h
    hintact hdrained hinTime hunderWay htimer hfeed (fun _ _ _ hq => hq)
  exact ⟨hflash, htransfer, hrx, hreply, htimeout, hinbox, hlog⟩

end Polls

/-! ## Writes -/

theorem Link.inbox_write (channel : Channel) (l : Link) (raw : List UInt8) :
    (l.write channel raw).inbox = l.inbox ++ (l.write channel raw).proto.tx := rfl

theorem Link.log_write (channel : Channel) (l : Link) (raw : List UInt8) :
    (l.write channel raw).log = l.log ++ [(raw, (l.write channel raw).proto.tx)] := rfl

/-- A reliable channel brings the last byte of what is written, and the manager
does what that byte asks for. -/
theorem Link.write_feed (post : Protocol → Flash → Prop) {channel : Channel}
    (hreliable : channel.Reliable) {l : Link} {rx : Receiver} {raw front : List UInt8}
    {last : UInt8} (hraw : raw = front ++ [last]) (habsorbs : l.proto.rx.Absorbs front rx)
    (htimer : TimerSet l.proto)
    (hfeed : ∀ nowMs, ∃ q w, (({ l.proto with rx, tx := [], lastActivityMs := nowMs } :
      Protocol).feed last).run ⟨l.flash, [], []⟩ = (.done q, w) ∧ TimerSet q ∧ post q w.state)
    (hpost : ∀ q flash nowMs, post q flash → post { q with lastActivityMs := nowMs } flash) :
    post (l.write channel raw).proto (l.write channel raw).flash := by
  have hdelivers := hreliable l raw
  exact (Link.polls_feed (l := { l with proto := { l.proto with tx := [] } }) post habsorbs
    (hdelivers.intact.trans hraw) hdelivers.drained hdelivers.inTime id htimer hfeed hpost).1

/-- A reliable channel makes the manager dispatch a frame that is written. -/
theorem Link.write_dispatch (post : Protocol → Flash → Prop) {channel : Channel}
    (hreliable : channel.Reliable) {l : Link} {cmd : UInt8} {seq : UInt16} {data : List UInt8}
    (hlen : data.length ≤ 1024) (hhunting : l.proto.rx.Hunting)
    (htimer : TimerSet l.proto)
    (hdispatch : ∀ q : Protocol, q.toTransfer = l.proto.toTransfer →
      q.timeoutMs = l.proto.timeoutMs → q.tx = [] → q.rx.state = .magic0 →
      ∃ q' w, (q.dispatch cmd seq data).run ⟨l.flash, [], []⟩ = (.done q', w) ∧ TimerSet q' ∧
        post q' w.state)
    (hpost : ∀ q flash nowMs, post q flash → post { q with lastActivityMs := nowMs } flash) :
    post (l.write channel (sendFrame cmd seq data)).proto
      (l.write channel (sendFrame cmd seq data)).flash := by
  obtain ⟨front, last, rx, rx', hframe, habsorbs, hlast, hhunting'⟩ :=
    Receiver.feed_sendFrame cmd seq hhunting hlen
  refine Link.write_feed post hreliable hframe habsorbs htimer ?_ hpost
  intro nowMs
  obtain ⟨q, w, hrun, hset, hq⟩ := hdispatch
    { l.proto with rx := rx', tx := [], lastActivityMs := nowMs } rfl rfl rfl hhunting'
  refine ⟨q, w, ?_, hset, hq⟩
  rw [Protocol.feed]
  simp only [hlast]
  exact hrun

/-- A written frame is acknowledged: the action is carried out, and the ACK can
be read. -/
structure Link.Acknowledged (l : Link) (channel : Channel) (a : Action) (raw : List UInt8)
    (seq : UInt16) : Prop where
  flash : (l.write channel raw).flash = a.image l.flash l.proto.toTransfer
  transfer : (l.write channel raw).proto.toTransfer = a.success l.flash l.proto.toTransfer
  hunting : (l.write channel raw).proto.rx.state = .magic0
  timeout : (l.write channel raw).proto.timeoutMs = a.timeoutMs l.proto.timeoutMs
  inbox : (l.write channel raw).inbox = l.inbox ++ sendFrame OtaBoot.rspAck seq []
  log : (l.write channel raw).log = l.log ++ [(raw, sendFrame OtaBoot.rspAck seq [])]

/-- A reliable channel makes the board carry out what is written. -/
theorem Link.write_frame {channel : Channel} (hreliable : channel.Reliable) {l : Link} {a : Action}
    {cmd : UInt8} {seq : UInt16} {data : List UInt8} (hlen : data.length ≤ 1024)
    (hhunting : l.proto.rx.Hunting) (htimer : TimerSet l.proto)
    (hacts : ∀ q : Protocol, q.toTransfer = l.proto.toTransfer →
      Acts .calm l.flash q a (q.dispatch cmd seq data))
    (hready : a.Ready l.flash l.proto.toTransfer)
    (hafter : (a.success l.flash l.proto.toTransfer).state = .receiving →
      a.timeoutMs l.proto.timeoutMs = timeoutDataMs) (hacks : a.acks = some seq) :
    l.Acknowledged channel a (sendFrame cmd seq data) seq := by
  obtain ⟨front, last, rx, rx', hframe, habsorbs, hlast, hhunting'⟩ :=
    Receiver.feed_sendFrame cmd seq hhunting hlen
  have hdelivers := hreliable l (sendFrame cmd seq data)
  have hdone := Link.polls_frame (l := { l with proto := { l.proto with tx := [] } }) habsorbs hlast
    hhunting' (hdelivers.intact.trans hframe) hdelivers.drained hdelivers.inTime id htimer hacts
    hready hafter
  have hreply := hdone.reply seq hacks
  refine ⟨hdone.flash, hdone.transfer, hdone.hunting, hdone.timeout, ?_, ?_⟩
  · exact congrArg (l.inbox ++ ·) hreply
  · exact congrArg (fun reply => l.log ++ [(sendFrame cmd seq data, reply)]) hreply

end OtaBoot.Host
