import OtaBoot.Host.Update
import OtaBoot.Properties.Framing

/-!
# Two parties and two channels

The tool and a board, joined by a channel in each direction. A channel keeps the
frames under way in their order; each of them may be delayed for any time, altered
in any way, or lost. What happened is kept as a history: what the board's receiver
made of what arrived, and what the tool found whenever it had waited.
-/

namespace OtaBoot.Host

open Storage Raising LittleEndian

/-! ## Frames in a stream -/

def Report.frame? : Report → Option Frame
  | .dispatched frame => some frame
  | .rejected | .badCrc _ => none

/-- The intact frames of a stream. -/
def framesIn (bytes : List UInt8) : List Frame := (parse bytes).filterMap Report.frame?

/-- The frame that a stream begins with, behind bytes that are none. -/
def firstFrame (bytes : List UInt8) : Option Frame := (parse bytes).head?.bind Report.frame?

theorem firstFrame_nil : firstFrame [] = none := by
  rw [firstFrame, parse_eq_nil rfl]
  rfl

theorem firstFrame_sendFrame {cmd : UInt8} {seq : UInt16} {data : List UInt8}
    (hshort : data.length ≤ 1024) (more : List UInt8) :
    firstFrame (sendFrame cmd seq data ++ more) = some ⟨cmd.toNat, seq.toNat, data⟩ := by
  have hhunting : protocolInit.rx.state = .magic0 := rfl
  obtain ⟨rx', -, hreports, -⟩ :=
    noisy_frame more hhunting (by decide : ¬ magic <:+: []) cmd seq hshort
  rw [List.nil_append, reports_eq_parse rfl] at hreports
  rw [firstFrame, hreports]
  rfl

/-! ## The network -/

/-- What happens while the tool waits. -/
inductive Move where
  /-- The board polls and there is nothing. -/
  | idle (nowMs : UInt32)
  /-- The first frame on its way to the board is over, and instead of it the board
  finds this in its polls: the frame, something else, or nothing. -/
  | arrive (polls : List Poll)
  /-- The first frame on its way to the tool is over, and these bytes arrive. -/
  | reply (bytes : List UInt8)
  deriving DecidableEq, Repr

/-- What the tool finds when it has waited. -/
structure Reading where
  /-- The frame that it has written last. -/
  written : List UInt8
  inbox : List UInt8
  /-- All that the board has sent until then. -/
  sent : List Frame

/-- What was on its way to the board, the write counter that was in force when it was
over, and what the receiver made of what arrived. -/
structure Heard where
  written : List UInt8
  counter : Nat
  reports : List Report

structure Network where
  link : Link
  up : List (List UInt8)
  down : List Frame
  /-- What will happen, one wait after the other. -/
  moves : List (List Move)
  written : List UInt8
  heard : List Heard
  readings : List Reading

/-- What `protocol_poll` drains. -/
def Poll.drained (poll : Poll) : List UInt8 := poll.bytes.take uartRxBufferSize

/-- What the board has sent. -/
def Link.sent (l : Link) : List Frame := l.log.flatMap fun entry => framesIn entry.2

/-- What the board makes of these polls. -/
def Link.hears (l : Link) (raw : List UInt8) (polls : List Poll) : Heard :=
  ⟨raw, counterAt l.flash, reports l.proto.rx (polls.flatMap Poll.drained)⟩

namespace Network

/-- Nothing is under way. -/
def initial (flash : Flash) (p : Protocol) (moves : List (List Move)) : Network where
  link := ⟨flash, p, [], []⟩
  up := []
  down := []
  moves := moves
  written := []
  heard := []
  readings := []

def step (net : Network) : Move → Network
  | .idle nowMs => { net with link := net.link.poll ⟨nowMs, []⟩ }
  | .arrive polls =>
      match net.up with
      | [] => net
      | raw :: up =>
          let link := net.link.write (fun _ _ => polls) raw
          { net with
            -- the replies are on their way
            link := link.keep net.link.inbox
            up := up
            down := net.down ++ framesIn link.proto.tx
            heard := net.heard ++ [net.link.hears raw polls] }
  | .reply bytes =>
      match net.down with
      | [] => net
      | _ :: down => { net with link := net.link.keep (net.link.inbox ++ bytes), down := down }

theorem step_arrive (net : Network) (polls : List Poll) {raw : List UInt8} {up : List (List UInt8)}
    (hup : net.up = raw :: up) :
    net.step (.arrive polls) =
      { net with
        link := (net.link.write (fun _ _ => polls) raw).keep net.link.inbox
        up := up
        down := net.down ++ framesIn (net.link.write (fun _ _ => polls) raw).proto.tx
        heard := net.heard ++ [net.link.hears raw polls] } := by
  simp only [step, hup]

/-- The tool waits, and looks at what there is. -/
def wait (net : Network) : Network :=
  let net := (net.moves.head?.getD []).foldl step { net with moves := net.moves.tail }
  { net with readings := net.readings ++ [⟨net.written, net.link.inbox, net.link.sent⟩] }

def write (raw : List UInt8) (net : Network) : Network :=
  { net with up := net.up ++ [raw], written := raw }

/-- Leave only these bytes to be read. -/
def keep (bytes : List UInt8) (net : Network) : Network := { net with link := net.link.keep bytes }

theorem inbox_keep (bytes : List UInt8) (net : Network) : (net.keep bytes).link.inbox = bytes := rfl

theorem keep_keep (bytes bytes' : List UInt8) (net : Network) :
    (net.keep bytes').keep bytes = net.keep bytes := rfl

/-- The network as the tool sees it. -/
def wire : Wire Network where
  write := write
  wait := wait
  inbox net := net.link.inbox
  keep := keep
  flush := keep []
  sleep := id
  inbox_keep := inbox_keep
  keep_keep := keep_keep

/-- What the receiver of the board accepts in place of a frame is nothing, or that
frame. -/
def Accepts (raw : List UInt8) (found : List Report) : Prop :=
  ((found.filterMap Report.frame?).map encode).Sublist [.ok raw]

/-- No altered frame is taken for another: the board accepts what was on its way to
it or nothing, and the tool finds only what the board has sent. -/
structure Genuine (net : Network) : Prop where
  board : ∀ entry ∈ net.heard, Accepts entry.written entry.reports
  tool : ∀ reading ∈ net.readings, ∀ frame, firstFrame reading.inbox = some frame →
    frame ∈ reading.sent

/-- Whenever the tool waits for the reply to END_UPDATE, a frame that it finds and
that is not a NACK has the SEQ of that END_UPDATE. -/
def Matched (net : Network) : Prop :=
  ∀ reading ∈ net.readings, ∀ seq frame,
    encode ⟨cmdEndUpdate, seq, []⟩ = .ok reading.written →
    firstFrame reading.inbox = some frame → frame.cmd ≠ rspNack → frame.seq = seq

/-- Whenever END_UPDATE arrives, the write counter can count one more record. -/
def HasRoom (net : Network) : Prop :=
  ∀ entry ∈ net.heard, ∀ seq, encode ⟨cmdEndUpdate, seq, []⟩ = .ok entry.written →
    entry.counter < 2 ^ 32 - 1

end Network

/-! ## What the tool finds is what it receives -/

namespace Wire

variable {σ : Type} {wire : Wire σ} {s : σ}

theorem raises_readExact {n : Nat} (hshort : (wire.inbox s).length < n) :
    Raises (wire.readExact n) s .timeout (wire.keep [] s) := by
  refine .bind (.get s) ?_
  rw [if_pos hshort]
  exact .bind (.set _ _) (.throw _ _)

/-- Whatever `receive` does, it leaves some bytes. It returns the frame that its input
begins with, and raises where there is none. -/
theorem receive_outcome (wire : Wire σ) (s : σ) : ∃ bytes,
    match StateT.run wire.receive.run s with
    | (.ok frame, s') => s' = wire.keep bytes (wire.wait s) ∧
        firstFrame (wire.inbox (wire.wait s)) = some frame
    | (.error _, s') => s' = wire.keep bytes (wire.wait s) ∧
        firstFrame (wire.inbox (wire.wait s)) = none := by
  set s' := wire.wait s with hs'
  cases hfound : afterMagic [] (wire.inbox s') with
  | none =>
      have hraises : StateT.run wire.receive.run s = _ := raises_receive hfound
      rw [hraises]
      refine ⟨[], rfl, ?_⟩
      rw [firstFrame, parse_eq_nil ((afterMagic_eq _).symm.trans hfound)]
      rfl
  | some rest =>
      have hpair := (afterMagic_eq _).symm.trans hfound
      have hreceive : StateT.run wire.receive.run s = StateT.run (do
          set (wire.keep rest s')
          let rest ← wire.readExact (frameHeaderSize - 2)
          if unpackField ((magic ++ rest).extract 3 5) > maxPayloadSize then throw .transport
          else do
            let tail ← wire.readExact (unpackField ((magic ++ rest).extract 3 5) + frameCrcSize)
            ofExcept (decode (magic ++ rest ++ tail)) : ToolM σ Frame).run s' := by
        rw [receive, (Returns.get s).run_bind, (Returns.set _ _).run_bind,
          (Returns.get _).run_bind, ← hs', hfound]
      by_cases hfew : rest.length < 5
      · have hraises : Raises (wire.readExact (frameHeaderSize - 2)) (wire.keep rest s') .timeout
            (wire.keep [] (wire.keep rest s')) := raises_readExact (by rwa [wire.inbox_keep])
        rw [hreceive, (Returns.set _ _).run_bind, hraises.bind_first, wire.keep_keep]
        refine ⟨[], rfl, ?_⟩
        rw [firstFrame, parse_eq hpair, if_pos hfew]
        rfl
      obtain ⟨cmd, seq, len, hfields⟩ := exists_header (rest.take 5)
        (by rw [List.length_take]; omega)
      obtain ⟨tail, rfl⟩ : ∃ tail, rest = Receiver.headerBytes cmd seq len ++ tail :=
        ⟨rest.drop 5, by rw [← hfields, List.take_append_drop]⟩
      have hrest : Returns (wire.readExact (frameHeaderSize - 2))
          (wire.keep (Receiver.headerBytes cmd seq len ++ tail) s')
          (Receiver.headerBytes cmd seq len)
          (wire.keep tail (wire.keep (Receiver.headerBytes cmd seq len ++ tail) s')) :=
        returns_readExact (wire.inbox_keep _ _) rfl
      have hfield : unpackField ((magic ++ Receiver.headerBytes cmd seq len).extract 3 5) =
          len.toNat := unpackField_bytes16 len
      by_cases hlong : len.toNat > maxPayloadSize
      · rw [hreceive, (Returns.set _ _).run_bind, hrest.run_bind, wire.keep_keep, hfield,
          if_pos hlong]
        refine ⟨tail, rfl, ?_⟩
        rw [firstFrame, (parse_header hpair).trans (if_pos hlong)]
        rfl
      by_cases hincomplete : tail.length < len.toNat + frameCrcSize
      · have hraises : Raises (wire.readExact (len.toNat + frameCrcSize)) (wire.keep tail s')
            .timeout (wire.keep [] (wire.keep tail s')) :=
          raises_readExact (by rwa [wire.inbox_keep])
        rw [hreceive, (Returns.set _ _).run_bind, hrest.run_bind, wire.keep_keep, hfield,
          if_neg hlong, hraises.bind_first, wire.keep_keep]
        refine ⟨[], rfl, ?_⟩
        rw [firstFrame, (parse_header hpair).trans ((if_neg hlong).trans (if_pos hincomplete))]
        rfl
      -- a whole frame, which the decoder judges
      obtain ⟨data, crc, more, rfl, hlen⟩ := exists_body (Nat.le_of_not_lt hincomplete)
      have hshort : data.length ≤ 1024 := hlen ▸ Nat.le_of_not_lt hlong
      rw [run_receive_found hlen hshort hfound, firstFrame, parse_body hlen hshort hpair,
        decode_body cmd seq hlen hshort crc]
      refine ⟨more, ?_⟩
      by_cases hcrc : crc32Compute (Receiver.headerBytes cmd seq len ++ data) = crc
      · rw [if_pos hcrc]
        exact ⟨rfl, rfl⟩
      · rw [if_neg hcrc]
        exact ⟨rfl, rfl⟩

section Ensuring

variable {pre post left : σ → Prop} {found : Frame → σ → Prop} {frame : Frame}

theorem ensures_send (h : ∀ raw s, encode frame = .ok raw → pre s → post (wire.write raw s)) :
    Ensures pre (wire.send frame) (fun _ => post) fun _ => pre := by
  intro s hpre
  rw [send]
  cases hencode : encode frame with
  | ok raw => exact h raw s hencode hpre
  | error e => exact hpre

theorem ensures_receive
    (hfound : ∀ s rep bytes, pre s → firstFrame (wire.inbox (wire.wait s)) = some rep →
      found rep (wire.keep bytes (wire.wait s)))
    (hleft : ∀ s bytes, pre s → left (wire.keep bytes (wire.wait s))) :
    Ensures pre wire.receive found fun _ => left := by
  intro s hpre
  obtain ⟨bytes, houtcome⟩ := receive_outcome wire s
  cases hrun : StateT.run wire.receive.run s with
  | mk result s' =>
      rw [hrun] at houtcome
      cases result with
      | ok rep =>
          obtain ⟨rfl, hfirst⟩ := houtcome
          exact hfound s rep bytes hpre hfirst
      | error e =>
          obtain ⟨rfl, -⟩ := houtcome
          exact hleft s bytes hpre

/-- An exchange, with what holds before an attempt, while so many are left, and
after its frame was written. `Timeout` does not leave it. -/
theorem ensures_exchange (wire : Wire σ) (frame : Frame) (before after : Nat → σ → Prop)
    (found : Frame → σ → Prop) (attempts : Nat)
    (hwrite : ∀ n raw s, encode frame = .ok raw → before (n + 1) s → after n (wire.write raw s))
    (hfound : ∀ n s rep bytes, after n s → firstFrame (wire.inbox (wire.wait s)) = some rep →
      found rep (wire.keep bytes (wire.wait s)))
    (hleft : ∀ n s bytes, after n s → before n (wire.keep bytes (wire.wait s)))
    (hskip : ∀ n s, before (n + 1) s → before n s)
    (hflush : ∀ n s, before n s → before n (wire.sleep (wire.flush s))) :
    Ensures (before attempts) (wire.exchange frame attempts) found
      fun e s => e ≠ .timeout ∧ before 0 s := by
  have hnone (n : Nat) (s : σ) (h : before n s) : before 0 s := by
    induction n with
    | zero => exact h
    | succ n ih => exact ih (hskip n s h)
  induction attempts with
  | zero => exact .throw fun s h => ⟨HostError.noConfusion, h⟩
  | succ attempts ih =>
      have hattempt : Ensures (before (attempts + 1)) (wire.send frame >>= fun _ => wire.receive)
          found fun _ => before attempts := by
        have hsend : Ensures (before (attempts + 1)) (wire.send frame) (fun _ => after attempts)
            fun _ => before attempts :=
          (ensures_send (hwrite attempts)).conseq (fun _ h => h) (fun _ _ h => h)
            fun _ s => hskip attempts s
        exact hsend.bind fun _ => ensures_receive (hfound attempts) (hleft attempts)
      refine Ensures.tryCatch hattempt fun e => .ite (fun hmends => ?_) fun hother => ?_
      · have hflushed : Ensures (before attempts) (do
            wire.flushInput
            wire.pause
            wire.exchange frame attempts) found fun e s => e ≠ .timeout ∧ before 0 s :=
          fun s h => ih _ (hflush attempts s h)
        exact Ensures.ite (fun _ => hflushed) fun _ => ih
      · exact .throw fun s h => ⟨fun htimeout => hother (.inl htimeout), hnone attempts s h⟩

end Ensuring

end Wire

end OtaBoot.Host
