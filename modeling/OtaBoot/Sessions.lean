import OtaBoot.Replies
import OtaBoot.Histories

/-!
# Sessions

The manager from poll to poll, at any times, with any bytes and any faults of the
flash. In every state that a session reaches the timer of a transfer is set for
the time between its frames.
-/

namespace OtaBoot

open Storage

/-! ## Polls -/

/-- One call of `protocol_poll`: its time, the bytes that are there, and what
happens to the flash operations. -/
structure Poll where
  nowMs : UInt32
  bytes : List UInt8
  faults : List Fault

/-- Polls one after the other, as long as there is power. -/
def session (flash : Flash) (p : Protocol) : List Poll → Option (Flash × Protocol)
  | [] => some (flash, p)
  | q :: polls =>
      match (p.poll q.nowMs q.bytes).run ⟨flash, q.faults, []⟩ with
      | (.done p', w) => session w.state p' polls
      | (.cut, _) => none

section Sessions

variable {flash flash' : Flash} {p p' : Protocol}

theorem session_cons {q : Poll} {w : World Flash FlashCall} (polls : List Poll)
    (h : (p.poll q.nowMs q.bytes).run ⟨flash, q.faults, []⟩ = (.done p', w)) :
    session flash p (q :: polls) = session w.state p' polls := by
  rw [session, h]

/-- The first poll of a session that does not lose power. -/
theorem session_first {q : Poll} {polls : List Poll}
    (h : session flash p (q :: polls) = some (flash', p')) :
    ∃ p₁ w, (p.poll q.nowMs q.bytes).run ⟨flash, q.faults, []⟩ = (.done p₁, w) ∧
      session w.state p₁ polls = some (flash', p') := by
  rw [session] at h
  cases hrun : (p.poll q.nowMs q.bytes).run ⟨flash, q.faults, []⟩ with
  | mk out w =>
      rw [hrun] at h
      cases out with
      | cut => cases h
      | done p₁ => exact ⟨p₁, w, rfl, h⟩

end Sessions

/-! ## The timeout in force -/

/-- Without a transfer under way, or with the timeout between its frames. -/
def Protocol.Timed (p : Protocol) : Prop := p.state = .receiving → p.timeoutMs = timeoutDataMs

section Timed

variable {p p' : Protocol}

theorem Protocol.Timed.of_not_receiving (h : p.state ≠ .receiving) : p.Timed :=
  fun hstate => absurd hstate h

theorem Protocol.Timed.init : protocolInit.Timed := .of_not_receiving init_not_receiving

theorem Protocol.Timed.congr (h : p.Timed) (hstate : p'.state = p.state)
    (htimeout : p'.timeoutMs = p.timeoutMs) : p'.Timed := by
  intro hreceiving
  rw [htimeout]
  exact h (hstate ▸ hreceiving)

theorem Protocol.Timed.yields (h : p.Timed) (hstate : p'.state = p.state)
    (htimeout : p'.timeoutMs = p.timeoutMs) :
    Faulty.Yields Protocol.Timed (pure p' : FlashM Protocol) :=
  .pure (h.congr hstate htimeout)

theorem Protocol.Timed.yields_aborted (htransfer : p'.toTransfer = p.toTransfer.abort) :
    Faulty.Yields Protocol.Timed (pure p' : FlashM Protocol) := by
  refine .pure (.of_not_receiving ?_)
  rw [htransfer]
  exact p.abort_not_receiving

theorem onStartUpdate_timed (h : p.Timed) (seq : UInt16) (data : List UInt8) :
    (p.onStartUpdate seq data).Yields Protocol.Timed := by
  refine .ite (fun _ => h.yields rfl rfl) fun _ => ?_
  refine .ite (fun _ => h.yields rfl rfl) fun _ => ?_
  refine .bind fun flash => .ite (fun _ => h.yields rfl rfl) fun _ => ?_
  refine .ite (fun _ => h.yields rfl rfl) fun _ => ?_
  exact .bind fun st => .ite (fun _ => h.yields rfl rfl) fun _ => .pure fun _ => rfl

theorem onData_timed (h : p.Timed) (seq : UInt16) (data : List UInt8) :
    (p.onData seq data).Yields Protocol.Timed := by
  refine .ite (fun _ => h.yields rfl rfl) fun _ => ?_
  refine .ite (fun _ => h.yields rfl rfl) fun _ => ?_
  refine .ite (fun _ => .yields_aborted rfl) fun _ => ?_
  refine .ite (fun _ => h.yields rfl rfl) fun _ => ?_
  refine .ite (fun _ => .yields_aborted rfl) fun _ => ?_
  -- the erase, if there is one, and the write
  refine .ite (fun _ => .bind fun st => ?_) fun _ => .bind fun st => ?_
  all_goals
    refine .ite (fun _ => .yields_aborted rfl) fun _ => .bind fun st => ?_
    exact .ite (fun _ => .yields_aborted rfl) fun _ => h.yields rfl rfl

theorem onEndUpdate_timed (h : p.Timed) (seq : UInt16) :
    (p.onEndUpdate seq).Yields Protocol.Timed := by
  refine .ite (fun _ => h.yields rfl rfl) fun _ => ?_
  refine .ite (fun _ => .yields_aborted rfl) fun _ => .bind fun flash => ?_
  refine .ite (fun _ => .yields_aborted rfl) fun _ => .bind fun st => ?_
  refine .ite (fun _ => .yields_aborted rfl) fun _ => .pure (.of_not_receiving ?_)
  intro hcomplete
  cases hcomplete

/-- No command leaves a transfer with another timeout. -/
theorem dispatch_timed (h : p.Timed) (cmd : UInt8) (seq : UInt16) (data : List UInt8) :
    (p.dispatch cmd seq data).Yields Protocol.Timed := by
  have h' : ({ p with cntFramesOk := p.cntFramesOk + 1 } : Protocol).Timed := h
  refine .ite (fun _ => .bind fun flash => h'.yields rfl rfl) fun _ => ?_
  refine .ite (fun _ => onStartUpdate_timed h' seq data) fun _ => ?_
  refine .ite (fun _ => onData_timed h' seq data) fun _ => ?_
  refine .ite (fun _ => onEndUpdate_timed h' seq) fun _ => ?_
  exact .ite (fun _ => Protocol.Timed.yields_aborted (p := p) rfl) fun _ => h'.yields rfl rfl

theorem feed_timed (h : p.Timed) (byte : UInt8) : (p.feed byte).Yields Protocol.Timed := by
  unfold Protocol.feed
  cases (p.rx.feed byte).2 with
  | pending | overlong | badCrc => exact h.yields rfl rfl
  | frame cmd seq data =>
      have h' : ({ p with rx := (p.rx.feed byte).1 } : Protocol).Timed := h
      exact dispatch_timed h' cmd seq data

theorem drain_timed (h : p.Timed) (budget : Nat) (received : Bool) (bytes : List UInt8) :
    (p.drain budget received bytes).Yields fun result => result.1.Timed := by
  induction bytes generalizing p budget received with
  | nil =>
      rw [Protocol.drain]
      exact .pure h
  | cons byte bytes ih =>
      cases budget with
      | zero => exact .pure h
      | succ budget => exact .bind_of (feed_timed h byte) fun p' h' => ih h' budget true

theorem pollTail_timed (h : p.Timed) (nowMs : UInt32) (received : Bool) :
    (p.pollTail nowMs received).Timed := by
  unfold Protocol.pollTail
  split
  · exact h
  split
  · split
    · exact .of_not_receiving p.abort_not_receiving
    · exact h
  · exact h

theorem poll_timed (h : p.Timed) (nowMs : UInt32) (bytes : List UInt8) :
    (p.poll nowMs bytes).Yields Protocol.Timed :=
  .bind_of (drain_timed h _ _ bytes) fun result h' => .pure (pollTail_timed h' nowMs result.2)

/-- In every state that a session reaches, the timer is set for the transfer. -/
theorem session_timed {flash flash' : Flash} {polls : List Poll} (h : p.Timed)
    (hsession : session flash p polls = some (flash', p')) : p'.Timed := by
  induction polls generalizing flash p with
  | nil =>
      cases hsession
      exact h
  | cons q polls ih =>
      obtain ⟨p₁, w, hrun, hrest⟩ := session_first hsession
      exact ih (poll_timed h q.nowMs q.bytes _ _ _ hrun) hrest

end Timed

end OtaBoot
