import OtaBoot.Sessions

/-!
# The inactivity timer

`protocol_poll` takes the time of every poll that drains a byte, and compares it
only in polls that drain none. So it is bytes that keep a transfer alive, not
frames.
-/

namespace OtaBoot

open Storage

/-! ## Silence on the line -/

/-- The bytes that the poll drains. -/
def Poll.drained (q : Poll) : List UInt8 := q.bytes.take uartRxBufferSize

/-- The time of the last poll that drained a byte, `first` when there is none. -/
def lastByteMs (first : UInt32) (polls : List Poll) : UInt32 :=
  polls.foldl (fun last q => if q.bytes = [] then last else q.nowMs) first

/-- The event ends a frame, which is dispatched or answered by a NACK. -/
def RxEvent.EndsFrame : RxEvent → Prop
  | .pending | .overlong => False
  | .badCrc _ | .frame _ _ _ => True

/-- No frame ends within the bytes. -/
def Receiver.NoFrame (rx : Receiver) : List UInt8 → Prop
  | [] => True
  | byte :: bytes => ¬ (rx.feed byte).2.EndsFrame ∧ NoFrame (rx.feed byte).1 bytes

/-- The receiver after some bytes. -/
def Receiver.feedAll (rx : Receiver) (bytes : List UInt8) : Receiver :=
  bytes.foldl (fun rx byte => (rx.feed byte).1) rx

section Frames

variable {rx : Receiver}

theorem Receiver.noFrame_append (front back : List UInt8) :
    rx.NoFrame (front ++ back) ↔ rx.NoFrame front ∧ (rx.feedAll front).NoFrame back := by
  induction front generalizing rx with
  | nil => exact (and_iff_right trivial).symm
  | cons byte front ih => exact (and_congr_right fun _ => ih).trans and_assoc.symm

theorem lastByteMs_append (first : UInt32) (front back : List Poll) :
    lastByteMs first (front ++ back) = lastByteMs (lastByteMs first front) back :=
  List.foldl_append

end Frames

/-! ## When the last byte came -/

section Activity

variable {flash flash' : Flash} {p p' : Protocol}

/-- The timer of a transfer runs from the last poll that drained a byte. -/
def Protocol.ActiveAt (last : UInt32) (p : Protocol) : Prop :=
  p.state = .receiving → p.lastActivityMs = last

/-- Whether a byte was drained. -/
theorem drain_received (p : Protocol) (budget : Nat) (received : Bool) (bytes : List UInt8) :
    (p.drain budget received bytes).Yields fun result =>
      result.2 = (received || (!bytes.isEmpty && budget != 0)) := by
  induction bytes generalizing p budget received with
  | nil =>
      rw [Protocol.drain]
      exact .pure (by simp)
  | cons byte bytes ih =>
      cases budget with
      | zero => exact .pure (Bool.or_false _).symm
      | succ budget =>
          refine .bind fun p' w w' result hrun => ?_
          rw [ih p' budget true w w' result hrun]
          simp

/-- The end of a poll notes its time, when a byte was drained. -/
theorem pollTail_activeAt {last : UInt32} (h : p.ActiveAt last) (nowMs : UInt32)
    (received : Bool) :
    (p.pollTail nowMs received).ActiveAt (if received then nowMs else last) := by
  cases received with
  | true => exact fun _ => rfl
  | false =>
      intro hstate
      unfold Protocol.pollTail at hstate ⊢
      simp only [Bool.false_eq_true, if_false] at hstate ⊢
      split at hstate
      next hreceiving =>
        rw [if_pos hreceiving]
        split at hstate
        · exact absurd hstate p.abort_not_receiving
        next hshort =>
          rw [if_neg hshort]
          exact h hreceiving
      next hidle => exact absurd hstate hidle

/-- The time of the last byte, after a poll. -/
theorem poll_activeAt {last : UInt32} (h : p.ActiveAt last) (nowMs : UInt32)
    (bytes : List UInt8) :
    (p.poll nowMs bytes).Yields (Protocol.ActiveAt (if bytes = [] then last else nowMs)) := by
  cases bytes with
  | nil =>
      change Faulty.Yields _ (pure (p.pollTail nowMs false))
      exact .pure (pollTail_activeAt h nowMs false)
  | cons byte bytes =>
      refine .bind_of (drain_received p uartRxBufferSize false (byte :: bytes)) ?_
      rintro ⟨p', received⟩ hreceived
      obtain rfl : received = true := hreceived
      exact .pure fun _ => rfl

end Activity

/-! ## Sessions -/

section Session

variable {flash flash' : Flash} {p p' : Protocol} {polls : List Poll}

/-- What every session keeps of the timer. -/
theorem session_timer {last : UInt32} (htimed : p.Timed) (hactive : p.ActiveAt last)
    (hsession : session flash p polls = some (flash', p')) :
    p'.Timed ∧ p'.ActiveAt (lastByteMs last polls) := by
  induction polls generalizing flash p last with
  | nil =>
      cases hsession
      exact ⟨htimed, hactive⟩
  | cons q polls ih =>
      obtain ⟨p₁, w, hrun, hrest⟩ := session_first hsession
      have htimed₁ := poll_timed htimed q.nowMs q.bytes _ _ _ hrun
      have hactive₁ := poll_activeAt hactive q.nowMs q.bytes _ _ _ hrun
      exact ih htimed₁ hactive₁ hrest

theorem session_timer_init (hsession : session flash protocolInit polls = some (flash', p')) :
    p'.Timed ∧ p'.ActiveAt (lastByteMs 0 polls) :=
  session_timer .init (fun h => absurd h init_not_receiving) hsession

end Session

/-! ## Silence -/

section Silence

variable {flash flash' : Flash} {p p' : Protocol} {rx : Receiver}

/-- Bytes that end no frame touch the receiver and a counter only. -/
theorem drain_noFrame (p : Protocol) (budget : Nat) (received : Bool) {bytes : List UInt8}
    (h : p.rx.NoFrame (bytes.take budget)) :
    ∃ p' received', p.drain budget received bytes = pure (p', received') ∧
      p'.toTransfer = p.toTransfer ∧ p'.lastActivityMs = p.lastActivityMs ∧
      p'.timeoutMs = p.timeoutMs ∧ p'.rx = p.rx.feedAll (bytes.take budget) := by
  induction bytes generalizing p budget received with
  | nil =>
      rw [Protocol.drain, List.take_nil]
      exact ⟨p, received, rfl, rfl, rfl, rfl, rfl⟩
  | cons byte bytes ih =>
      cases budget with
      | zero => exact ⟨p, received, rfl, rfl, rfl, rfl, rfl⟩
      | succ budget =>
          obtain ⟨hbyte, hrest⟩ := h
          -- the byte changes at most the counter of rejected frames
          obtain ⟨p₁, hfeed, htransfer₁, hactive₁, htimeout₁, hrx₁⟩ : ∃ p₁, p.feed byte = pure p₁ ∧
              p₁.toTransfer = p.toTransfer ∧ p₁.lastActivityMs = p.lastActivityMs ∧
              p₁.timeoutMs = p.timeoutMs ∧ p₁.rx = (p.rx.feed byte).1 := by
            unfold Protocol.feed
            cases hevent : (p.rx.feed byte).2 with
            | pending | overlong => exact ⟨_, rfl, rfl, rfl, rfl, rfl⟩
            | badCrc | frame =>
                rw [hevent] at hbyte
                exact absurd trivial hbyte
          rw [← hrx₁] at hrest
          obtain ⟨p', received', hdrain, htransfer, hactive, htimeout, hrx⟩ :=
            ih p₁ budget true hrest
          refine ⟨p', received', ?_, htransfer.trans htransfer₁, hactive.trans hactive₁,
            htimeout.trans htimeout₁, hrx.trans ?_⟩
          · rw [Protocol.drain, hfeed, pure_bind, hdrain]
          · rw [hrx₁]
            rfl

theorem pollTail_rx (p : Protocol) (nowMs : UInt32) (received : Bool) :
    (p.pollTail nowMs received).rx = p.rx := by
  unfold Protocol.pollTail
  split
  · rfl
  split
  · split <;> rfl
  · rfl

/-- A transfer outlives a poll unless nothing came and its time is over. -/
theorem pollTail_receiving (p : Protocol) (nowMs : UInt32) (received : Bool) :
    (p.pollTail nowMs received).state = .receiving ↔ p.state = .receiving ∧
      ¬ (received = false ∧ nowMs - p.lastActivityMs > p.timeoutMs) := by
  unfold Protocol.pollTail
  cases received with
  | true => simp
  | false =>
      by_cases hstate : p.state = .receiving
      · by_cases hlate : nowMs - p.lastActivityMs > p.timeoutMs
        · simp only [Bool.false_eq_true, if_false, if_pos hstate, hlate, if_true, and_true,
            not_true_eq_false, and_false, iff_false]
          exact p.abort_not_receiving
        · simp [hstate, hlate]
      · simp [hstate]

/-- A poll that ends no frame. -/
theorem poll_noFrame {q : Poll} (h : p.rx.NoFrame q.drained) :
    ∃ p', p.poll q.nowMs q.bytes = pure p' ∧ p'.rx = p.rx.feedAll q.drained ∧
      (p'.state = .receiving ↔ p.state = .receiving ∧
        ¬ (q.bytes = [] ∧ q.nowMs - p.lastActivityMs > p.timeoutMs)) := by
  obtain ⟨p₁, received, hdrain, htransfer, hactive, htimeout, hrx⟩ :=
    drain_noFrame p uartRxBufferSize false h
  have hreceived : received = (false || (!q.bytes.isEmpty && uartRxBufferSize != 0)) := by
    have hyields := drain_received p uartRxBufferSize false q.bytes
    rw [hdrain] at hyields
    exact hyields ⟨fun _ => erasedByte, [], []⟩ _ _ rfl
  have hsilent : received = false ↔ q.bytes = [] := by
    rw [hreceived]
    cases q.bytes <;> simp [uartRxBufferSize]
  refine ⟨p₁.pollTail q.nowMs received, by rw [Protocol.poll, hdrain]; rfl,
    (pollTail_rx _ _ _).trans hrx, ?_⟩
  rw [pollTail_receiving, hactive, htimeout, hsilent, htransfer]

/-- The poll drains nothing, and the time since the last byte is over. -/
def Poll.TimesOut (q : Poll) (last : UInt32) : Prop :=
  q.bytes = [] ∧ q.nowMs - last > timeoutDataMs

/-- Polls that end no frame drop the transfer in the first poll that drains
nothing after the time since the last byte is over. -/
theorem session_noFrame {last : UInt32} {polls : List Poll} (flash : Flash) (htimed : p.Timed)
    (hactive : p.ActiveAt last) (h : p.rx.NoFrame (polls.flatMap Poll.drained)) :
    ∃ p', session flash p polls = some (flash, p') ∧
      (p'.state = .receiving ↔ p.state = .receiving ∧
        ∀ front q back, polls = front ++ q :: back → ¬ q.TimesOut (lastByteMs last front)) := by
  induction polls generalizing p last with
  | nil =>
      refine ⟨p, rfl, (and_iff_left ?_).symm⟩
      intro front q back hsplit
      exact absurd hsplit (by simp)
  | cons q polls ih =>
      rw [List.flatMap_cons, Receiver.noFrame_append] at h
      obtain ⟨p₁, hpoll, hrx, hstate⟩ := poll_noFrame h.1
      have hrun : (p.poll q.nowMs q.bytes).run ⟨flash, q.faults, []⟩ =
          (.done p₁, ⟨flash, q.faults, []⟩) := by
        rw [hpoll]
        rfl
      have htimed₁ := poll_timed htimed q.nowMs q.bytes _ _ _ hrun
      have hactive₁ := poll_activeAt hactive q.nowMs q.bytes _ _ _ hrun
      rw [← hrx] at h
      obtain ⟨p', hsession, hiff⟩ := ih htimed₁ hactive₁ h.2
      refine ⟨p', (session_cons polls hrun).trans hsession, ?_⟩
      rw [hiff, hstate, and_assoc]
      refine and_congr_right fun hreceiving => ?_
      rw [hactive hreceiving, htimed hreceiving]
      constructor
      · rintro ⟨hfirst, hrest⟩ front q' back hsplit
        cases front with
        | nil =>
            cases hsplit
            exact hfirst
        | cons q₀ front =>
            cases hsplit
            exact hrest front q' back rfl
      · intro hall
        refine ⟨hall [] q polls rfl, ?_⟩
        intro front q' back hsplit
        exact hall (q :: front) q' back (by rw [hsplit]; rfl)

end Silence

/-! ## The result -/

/-- As long as no frame ends, a transfer is dropped exactly in a poll that drains
no byte, more than the timeout after the last poll that drained one. -/
theorem silence_detected_iff (flash₀ : Flash) {past : List Poll} {flash : Flash} {p : Protocol}
    (hpast : session flash₀ protocolInit past = some (flash, p)) (hstate : p.state = .receiving)
    {polls : List Poll} (hsilent : p.rx.NoFrame (polls.flatMap Poll.drained)) :
    ∃ p', session flash p polls = some (flash, p') ∧
      (p'.state ≠ .receiving ↔ ∃ front q back, polls = front ++ q :: back ∧
        q.bytes = [] ∧ q.nowMs - lastByteMs 0 (past ++ front) > timeoutDataMs) := by
  have htimer := session_timer_init hpast
  obtain ⟨p', hsession, hiff⟩ := session_noFrame flash htimer.1 htimer.2 hsilent
  refine ⟨p', hsession, ?_⟩
  rw [Ne, hiff, and_iff_right hstate]
  simp only [Poll.TimesOut, lastByteMs_append, not_forall, not_not, exists_prop]

/-! ### A transfer that has begun -/

/-- The poll in which the START_UPDATE of an image of eight bytes arrives. -/
def startPoll : Poll := ⟨0, sendFrame cmdStartUpdate 0 (startPayload 8 0 1 .b), []⟩

/-- A board that waits for its first update begins a transfer. -/
theorem session_startPoll :
    ∃ flash p, session Board.blank.flash protocolInit [startPoll] = some (flash, p) ∧
      p.state = .receiving ∧ p.rx.state = .magic0 := by
  have hstart : protocolInit.rx.state = .magic0 := rfl
  obtain ⟨front, last, rx₁, rx₂, hframe, habsorbs, hlast, hhunting⟩ :=
    Receiver.feed_sendFrame cmdStartUpdate 0 (.inl hstart)
      (by decide : (startPayload 8 0 1 .b).length ≤ 1024)
  have hlength : front.length = 26 := by
    have hboth := congrArg List.length hframe
    rw [Receiver.length_sendFrame, List.length_append, length_startPayload] at hboth
    simp only [List.length_singleton] at hboth
    omega
  -- the last byte dispatches the frame
  have haction := action_start (t := protocolInit.toTransfer) Board.blank.flash 0 0 1
    (by decide : (8 : UInt32) ≠ 0) (by decide)
  rw [Board.blank_freeSlot] at haction
  obtain ⟨p, w, hrun, heffect, -⟩ := dispatch_calm (p := { protocolInit with rx := rx₂ })
    Board.blank.flash Transfer.Bounded.init cmdStartUpdate 0 (startPayload 8 0 1 .b) (by decide)
  change ActionEffect _ _ _ (protocolInit.toTransfer.action Board.blank.flash cmdStartUpdate 0
    (startPayload 8 0 1 .b)) _ _ at heffect
  rw [haction] at heffect
  have hdrain := drain_absorbs [last] false habsorbs (by omega : front.length ≤ 512)
  have hfeed : ({ protocolInit with rx := rx₁ } : Protocol).feed last =
      ({ protocolInit with rx := rx₂ } : Protocol).dispatch cmdStartUpdate 0
        (startPayload 8 0 1 .b) := by
    simp only [Protocol.feed, hlast]
    rfl
  have hpoll : (protocolInit.poll startPoll.nowMs startPoll.bytes).run
      ⟨Board.blank.flash, startPoll.faults, []⟩ = (.done (p.pollTail 0 true), w) := by
    rw [Protocol.poll, startPoll, hframe, show uartRxBufferSize = 512 from rfl, hdrain, hlength,
      Protocol.drain, hfeed, bind_assoc, Faulty.run_bind_done hrun]
    rfl
  obtain ⟨state, faults, calls⟩ := w
  refine ⟨state, p.pollTail 0 true, session_cons [] hpoll, ?_⟩
  cases heffect with
  | performed htransfer hrx =>
      refine ⟨congrArg Transfer.state htransfer, ?_⟩
      rw [pollTail_rx, hrx]
      exact hhunting
  | failed _ hready => exact absurd trivial (hready trivial)

/-- A receiver that hunts for a frame takes no notice of zeros. -/
theorem noFrame_zero {rx : Receiver} (h : rx.state = .magic0) :
    rx.NoFrame [0] ∧ (rx.feedAll [0]).state = .magic0 := by
  have hfeed : rx.feed 0 = (rx, .pending) := by
    unfold Receiver.feed
    rw [h]
    rfl
  constructor
  · refine ⟨?_, trivial⟩
    rw [hfeed]
    exact id
  · change (rx.feed 0).1.state = _
    rw [hfeed]
    exact h

/-- Three polls in twelve seconds, each of which drains one byte of noise. -/
def noisyPolls : List Poll := [⟨4000, [0], []⟩, ⟨8000, [0], []⟩, ⟨12000, [0], []⟩]

/-- The transfer is kept for twelve seconds by bytes that are no frame. -/
theorem noise_postpones :
    ∃ flash p, session Board.blank.flash protocolInit [startPoll] = some (flash, p) ∧
      p.state = .receiving ∧ p.rx.NoFrame (noisyPolls.flatMap Poll.drained) ∧
      (12000 : UInt32) - startPoll.nowMs > timeoutDataMs ∧
      ∃ p', session flash p noisyPolls = some (flash, p') ∧ p'.state = .receiving := by
  obtain ⟨flash, p, hsession, hstate, hhunting⟩ := session_startPoll
  have hbytes : noisyPolls.flatMap Poll.drained = [0] ++ ([0] ++ [0]) := rfl
  have hsilent : p.rx.NoFrame (noisyPolls.flatMap Poll.drained) := by
    have hfirst := noFrame_zero hhunting
    have hsecond := noFrame_zero hfirst.2
    rw [hbytes, Receiver.noFrame_append, Receiver.noFrame_append]
    exact ⟨hfirst.1, hsecond.1, (noFrame_zero hsecond.2).1⟩
  have htimer := session_timer_init hsession
  obtain ⟨p', hsession', hiff⟩ := session_noFrame flash htimer.1 htimer.2 hsilent
  refine ⟨flash, p, hsession, hstate, hsilent, by decide, p', hsession', hiff.mpr ⟨hstate, ?_⟩⟩
  -- no poll of the three drains nothing
  rintro front q back hsplit ⟨hnone, -⟩
  have hmem : q ∈ noisyPolls := by
    rw [hsplit]
    exact List.mem_append_right _ List.mem_cons_self
  simp only [noisyPolls, List.mem_cons, List.not_mem_nil, or_false] at hmem
  rcases hmem with rfl | rfl | rfl <;> cases hnone

/-- A silent line is detected. -/
theorem silence_detected_iff_silent :
    ∃ flash p, session Board.blank.flash protocolInit [startPoll] = some (flash, p) ∧
      ∃ p', session flash p [⟨5001, [], []⟩] = some (flash, p') ∧
        (p'.state ≠ .receiving ↔ ∃ front q back, [(⟨5001, [], []⟩ : Poll)] = front ++ q :: back ∧
          q.bytes = [] ∧ q.nowMs - lastByteMs 0 ([startPoll] ++ front) > timeoutDataMs) := by
  obtain ⟨flash, p, hsession, hstate, -⟩ := session_startPoll
  exact ⟨flash, p, hsession, silence_detected_iff Board.blank.flash hsession hstate trivial⟩

end OtaBoot
