import Mathlib.Tactic.Linarith
import OtaBoot.Announcement
import OtaBoot.Foundation.Credits
import OtaBoot.Properties.Assembly

/-!
# The work of one poll

A poll drains no more bytes than the ring holds, but a byte that completes a frame
may cost an erased page. A frame has eleven bytes at least, so that the bytes pay
for what the frames cost.
-/

namespace OtaBoot

open Storage
open Faulty (Pays)

/-! ## The price of a frame -/

/-- So much for a page to be erased, and so much for a byte to be programmed. -/
def flashPrice (erase program : Nat) : FlashCall → Nat
  | .erasePage _ => erase
  | .write _ data => program * data.length

section Prices

variable {erase program credits : Nat} {α : Type} {post : α → Nat → Prop}

theorem pays_erasePage (address : UInt32) {f : FlashStatus → FlashM α} (h : erase ≤ credits)
    (hf : ∀ st, Pays (flashPrice erase program) (credits - erase) (f st) post) :
    Pays (flashPrice erase program) credits (flashErasePage address >>= f) post :=
  .bind_call (calls_flashErasePage address) h hf

theorem pays_write (address : UInt32) {data : List UInt8} {f : FlashStatus → FlashM α}
    (h : program * data.length ≤ credits)
    (hf : ∀ st, Pays (flashPrice erase program) (credits - program * data.length) (f st) post) :
    Pays (flashPrice erase program) credits (flashWrite address data >>= f) post :=
  .bind_call (calls_flashWrite address data) h hf

/-- A record costs a page and its 48 bytes. -/
theorem pays_metadataWrite (src : Metadata) :
    Pays (flashPrice erase program) (erase + program * 48) (metadataWrite src)
      fun _ _ => True := by
  refine .bind_silent .read fun flash => pays_erasePage _ (Nat.le_add_right _ _) fun st => ?_
  rw [Nat.add_sub_cancel_left]
  refine .ite (fun _ => .pure trivial) fun _ => ?_
  refine pays_write _ (by rw [Metadata.length_toBytes]) fun st => ?_
  refine .ite (fun _ => .pure trivial) fun _ => .bind_silent .read fun flash' => ?_
  split
  · exact .pure trivial
  · exact .ite (fun _ => .pure trivial) fun _ => .pure trivial

/-- One frame was answered, at most. -/
def OneReply (p p' : Protocol) : Prop := p'.rx = p.rx ∧ p'.tx.length ≤ p.tx.length + 23

theorem oneReply_send (p : Protocol) (cmd : UInt8) (seq : UInt16) {data : List UInt8}
    (h : data.length ≤ 12) : OneReply p (p.send cmd seq data) := by
  refine ⟨rfl, ?_⟩
  change (p.tx ++ sendFrame cmd seq data).length ≤ _
  rw [List.length_append, Receiver.length_sendFrame]
  omega

theorem oneReply_ack (p : Protocol) (seq : UInt16) : OneReply p (p.sendAck seq) :=
  oneReply_send p rspAck seq (Nat.zero_le 12)

theorem oneReply_nack (p : Protocol) (seq : UInt16) (err : UInt8) : OneReply p (p.sendNack seq err) :=
  oneReply_send p rspNack seq (Nat.le_add_left 1 11)

theorem oneReply_nack_abort (p : Protocol) (seq : UInt16) (err : UInt8) :
    OneReply p (p.sendNack seq err).abortTransfer :=
  oneReply_nack p seq err

theorem pays_onGetInfo (p : Protocol) (seq : UInt16) :
    Pays (flashPrice erase program) credits (p.onGetInfo seq) fun p' _ => OneReply p p' :=
  .bind_silent .read fun _ => .pure (oneReply_send p rspInfo seq (by simp))

theorem pays_onStartUpdate (p : Protocol) (seq : UInt16) (data : List UInt8) :
    Pays (flashPrice erase program) (erase + program * 48) (p.onStartUpdate seq data)
      fun p' _ => OneReply p p' := by
  refine .ite (fun _ => .pure (oneReply_nack p seq _)) fun _ => ?_
  refine .ite (fun _ => .pure (oneReply_nack p seq _)) fun _ => .bind_silent .read fun flash => ?_
  refine .ite (fun _ => .pure (oneReply_nack p seq _)) fun _ => ?_
  refine .ite (fun _ => .pure (oneReply_nack p seq _)) fun _ => ?_
  refine (pays_metadataWrite _).bind fun st left _ => ?_
  refine .ite (fun _ => .pure (oneReply_nack p seq _)) fun _ => .pure ?_
  exact oneReply_ack p seq

theorem pays_onData (p : Protocol) (seq : UInt16) (data : List UInt8) :
    Pays (flashPrice erase program) (erase + program * data.length) (p.onData seq data)
      fun p' _ => OneReply p p' := by
  have hwrite (addr : UInt32) : Pays (flashPrice erase program) (program * data.length)
      (do
        let st ← flashWrite addr data
        if st ≠ .ok then pure (p.sendNack seq errFlash).abortTransfer
        else pure ({ p with
          toTransfer := p.toTransfer.advanced seq (UInt32.ofNat data.length) }.sendAck seq))
      fun p' _ => OneReply p p' :=
    pays_write _ (Nat.le_refl _) fun st =>
      .ite (fun _ => .pure (oneReply_nack_abort p seq _)) fun _ => .pure (oneReply_ack p seq)
  refine .ite (fun _ => .pure (oneReply_nack p seq _)) fun _ => ?_
  refine .ite (fun _ => .pure (oneReply_ack p seq)) fun _ => ?_
  refine .ite (fun _ => .pure (oneReply_nack_abort p seq _)) fun _ => ?_
  refine .ite (fun _ => .pure (oneReply_nack p seq _)) fun _ => ?_
  refine .ite (fun _ => .pure (oneReply_nack_abort p seq _)) fun _ => ?_
  by_cases hpage : p.bytesWritten % flashPageSize = 0
  · rw [if_pos hpage]
    refine pays_erasePage _ (Nat.le_add_right _ _) fun st => ?_
    rw [Nat.add_sub_cancel_left]
    exact .ite (fun _ => .pure (oneReply_nack_abort p seq _)) fun _ => hwrite _
  · rw [if_neg hpage, pure_bind]
    refine .ite (fun _ => .pure (oneReply_nack_abort p seq _)) fun _ => ?_
    exact (hwrite _).conseq (Nat.le_add_left _ _) fun _ _ h => h

theorem pays_onEndUpdate (p : Protocol) (seq : UInt16) :
    Pays (flashPrice erase program) (erase + program * 48) (p.onEndUpdate seq)
      fun p' _ => OneReply p p' := by
  refine .ite (fun _ => .pure (oneReply_nack p seq _)) fun _ => ?_
  refine .ite (fun _ => .pure (oneReply_nack_abort p seq _)) fun _ => .bind_silent .read fun _ => ?_
  refine .ite (fun _ => .pure (oneReply_nack_abort p seq _)) fun _ => ?_
  refine (pays_metadataWrite _).bind fun st left _ => ?_
  exact .ite (fun _ => .pure (oneReply_nack_abort p seq _)) fun _ => .pure (oneReply_ack p seq)

theorem pays_dispatch (p : Protocol) (cmd : UInt8) (seq : UInt16) (data : List UInt8) :
    Pays (flashPrice erase program) (erase + program * (48 + data.length))
      (p.dispatch cmd seq data) fun p' _ => OneReply p p' := by
  have hrecord : erase + program * 48 ≤ erase + program * (48 + data.length) :=
    Nat.add_le_add_left (Nat.mul_le_mul_left _ (Nat.le_add_right _ _)) _
  have hblock : erase + program * data.length ≤ erase + program * (48 + data.length) :=
    Nat.add_le_add_left (Nat.mul_le_mul_left _ (Nat.le_add_left _ _)) _
  refine .ite (fun _ => pays_onGetInfo _ seq) fun _ => ?_
  refine .ite (fun _ => (pays_onStartUpdate _ seq data).conseq hrecord fun _ _ h => h) fun _ => ?_
  refine .ite (fun _ => (pays_onData _ seq data).conseq hblock fun _ _ h => h) fun _ => ?_
  refine .ite (fun _ => (pays_onEndUpdate _ seq).conseq hrecord fun _ _ h => h) fun _ => ?_
  exact .ite (fun _ => .pure (oneReply_ack p.abortTransfer seq)) fun _ =>
    .pure (oneReply_nack p seq _)

end Prices

/-! ## The bytes of a frame -/

/-- The bytes of the frame under way. -/
def Receiver.held (rx : Receiver) : Nat :=
  match rx.state with
  | .magic0 => 0
  | .magic1 => 1
  | .header | .data | .crc => rx.index.toNat

/-- What a byte completes was held before, and nothing of it is held afterwards. -/
def Receiver.Settles (rx rx' : Receiver) : RxEvent → Prop
  | .pending | .overlong => rx'.held ≤ rx.held + 1
  | .badCrc _ => 10 ≤ rx.held ∧ rx'.held = 0
  | .frame _ _ data => 10 + data.length = rx.held ∧ rx'.held = 0

/-- A byte that is pushed is held. -/
theorem Receiver.Within.held_push {rx : Receiver} {first last : Nat} (h : rx.Within first last)
    (hlast : last ≤ 1035) (hbusy : ¬ rx.Hunting) (byte : UInt8) :
    (rx.push byte).index.toNat = rx.held + 1 ∧ (rx.push byte).held = rx.held + 1 := by
  have hpush := h.index_push hlast byte
  have hsame : (rx.push byte).state = rx.state := rfl
  unfold Receiver.held
  rw [hsame]
  cases hstate : rx.state with
  | magic0 => exact absurd (Or.inl hstate) hbusy
  | magic1 => exact absurd (Or.inr hstate) hbusy
  | header | data | crc => exact ⟨hpush, hpush⟩

theorem Receiver.Framed.settles {rx : Receiver} (h : rx.Framed) (byte : UInt8) :
    rx.Settles (rx.feed byte).1 (rx.feed byte).2 := by
  have hbusy {state : RxState} (hstate : rx.state = state) (h₀ : state ≠ .magic0)
      (h₁ : state ≠ .magic1) : ¬ rx.Hunting := by
    rintro (h | h)
    · exact h₀ (hstate.symm.trans h)
    · exact h₁ (hstate.symm.trans h)
  unfold Receiver.feed
  cases hstate : rx.state with
  | magic0 =>
      dsimp only
      split
      · exact Nat.le_add_left 1 _
      · exact Nat.le_succ _
  | magic1 =>
      have hheld : rx.held = 1 := by
        unfold Receiver.held
        rw [hstate]
      dsimp only
      split
      · change 2 ≤ rx.held + 1
        rw [hheld]
      · split
        · exact Nat.le_add_left 1 _
        · exact Nat.zero_le _
  | header =>
      obtain ⟨hindex, hheld⟩ := ((framed_header hstate).mp h).held_push (by decide)
        (hbusy hstate (by decide) (by decide)) byte
      dsimp only
      split
      · split
        · exact Nat.zero_le _
        · split <;> exact Nat.le_of_eq hindex
      · exact Nat.le_of_eq hheld
  | data =>
      obtain ⟨hlen, hwithin⟩ := (framed_data hstate).mp h
      obtain ⟨hindex, hheld⟩ := hwithin.held_push (by omega)
        (hbusy hstate (by decide) (by decide)) byte
      dsimp only
      split
      · exact Nat.le_of_eq hindex
      · exact Nat.le_of_eq hheld
  | crc =>
      obtain ⟨hlen, hwithin⟩ := (framed_crc hstate).mp h
      obtain ⟨hindex, hheld⟩ := hwithin.held_push (by omega)
        (hbusy hstate (by decide) (by decide)) byte
      dsimp only
      split
      next hlast =>
        have hend := hwithin.push_last (by omega) hlast
        have hall : 10 + (rx.push byte).len.toNat = rx.held := by
          rw [hwithin.len_push]
          omega
        unfold Receiver.complete
        dsimp only
        split
        · refine ⟨?_, rfl⟩
          rw [Memory.length_read]
          exact hall
        · exact ⟨hall ▸ Nat.le_add_right _ _, rfl⟩
      · exact Nat.le_of_eq hheld

/-- No frame is longer than the buffer. -/
theorem Receiver.Framed.held_le {rx : Receiver} (h : rx.Framed) : rx.held ≤ 1034 := by
  unfold Receiver.held
  cases hstate : rx.state with
  | magic0 => exact Nat.zero_le 1034
  | magic1 => exact Nat.le_add_left 1 1033
  | header =>
      obtain ⟨-, hmore, hsum⟩ := (framed_header hstate).mp h
      dsimp only
      omega
  | data =>
      obtain ⟨hlen, -, hmore, hsum⟩ := (framed_data hstate).mp h
      dsimp only
      omega
  | crc =>
      obtain ⟨hlen, -, hmore, hsum⟩ := (framed_crc hstate).mp h
      dsimp only
      omega

/-! ## The bytes pay -/

section Polls

variable {erase program : Nat}

/-- What the bytes of the frame under way have put aside, in elevenths. -/
def Receiver.savings (erase program : Nat) (rx : Receiver) : Nat :=
  (erase + program * 48) * min rx.held 10 + 11 * program * rx.held

/-- What a byte is worth. -/
def bytePrice (erase program : Nat) : Nat := erase + program * 48 + 11 * program

/-- So many bytes of replies were sent, and the frame under way has put aside
some of its own, in elevenths. -/
def Protocol.replied (p : Protocol) : Nat := 11 * p.tx.length + 23 * min p.rx.held 10

/-- Where a byte leaves the manager. -/
structure Fares (erase program : Nat) (p : Protocol) (count : Nat) (p' : Protocol) (left : Nat) :
    Prop where
  framed : p'.rx.Framed
  saved : p'.rx.savings erase program ≤ left
  replied : p'.replied ≤ p.replied + 23 * count

theorem savings_succ {rx rx' : Receiver} (h : rx'.held ≤ rx.held + 1) :
    rx'.savings erase program ≤ rx.savings erase program + bytePrice erase program := by
  have hmin : min rx'.held 10 ≤ min rx.held 10 + 1 := by omega
  have hfirst := Nat.mul_le_mul_left (erase + program * 48) hmin
  have hsecond := Nat.mul_le_mul_left (11 * program) h
  unfold Receiver.savings bytePrice
  linarith

theorem savings_frame {rx : Receiver} {len : Nat} (h : 10 + len = rx.held) :
    11 * erase + 11 * program * (48 + len) ≤
      rx.savings erase program + bytePrice erase program := by
  unfold Receiver.savings bytePrice
  rw [← h, Nat.min_eq_right (Nat.le_add_right _ _)]
  linarith [Nat.zero_le (program * 48)]

theorem savings_zero {rx : Receiver} (h : rx.held = 0) : rx.savings erase program = 0 := by
  unfold Receiver.savings
  rw [h, Nat.zero_min, Nat.mul_zero, Nat.mul_zero]

/-- A byte that completes nothing. -/
theorem fares_pending {p p' : Protocol} {left : Nat} (hframed : p'.rx.Framed)
    (hheld : p'.rx.held ≤ p.rx.held + 1) (htx : p'.tx = p.tx)
    (hleft : p.rx.savings erase program + bytePrice erase program ≤ left) :
    Fares erase program p 1 p' left := by
  refine ⟨hframed, Nat.le_trans (savings_succ hheld) hleft, ?_⟩
  unfold Protocol.replied
  rw [htx]
  omega

/-- A byte that completes a frame. -/
theorem fares_complete {p : Protocol} (p₀ : Protocol) {p' : Protocol} (hframed : p₀.rx.Framed) (hheld : 10 ≤ p.rx.held)
    (hnone : p₀.rx.held = 0) (htx : p₀.tx = p.tx) (hreply : OneReply p₀ p') (left : Nat) :
    Fares erase program p 1 p' left := by
  obtain ⟨hrx, hlength⟩ := hreply
  refine ⟨hrx ▸ hframed, ?_, ?_⟩
  · rw [hrx, savings_zero hnone]
    exact Nat.zero_le left
  · unfold Protocol.replied
    rw [hrx, hnone]
    rw [htx] at hlength
    omega

theorem pays_feed {p : Protocol} (h : p.rx.Framed) (byte : UInt8) :
    Pays (flashPrice (11 * erase) (11 * program))
      (p.rx.savings erase program + bytePrice erase program) (p.feed byte)
      (Fares erase program p 1) := by
  have hsettles := h.settles byte
  have hframed := h.feed byte
  unfold Protocol.feed
  generalize (p.rx.feed byte).1 = rx' at hsettles hframed
  cases hevent : (p.rx.feed byte).2 with
  | pending =>
      rw [hevent] at hsettles
      exact .pure (fares_pending hframed hsettles rfl (Nat.le_refl _))
  | overlong =>
      rw [hevent] at hsettles
      exact .pure (fares_pending hframed hsettles rfl (Nat.le_refl _))
  | badCrc seq =>
      rw [hevent] at hsettles
      exact .pure (fares_complete { p with rx := rx', cntFramesKo := p.cntFramesKo + 1 } hframed
        hsettles.1 hsettles.2 rfl (oneReply_nack _ seq errCrc) _)
  | frame cmd seq data =>
      rw [hevent] at hsettles
      refine (pays_dispatch { p with rx := rx' } cmd seq data).conseq (savings_frame hsettles.1) ?_
      intro p' left hreply
      have hheld : 10 ≤ p.rx.held := hsettles.1 ▸ Nat.le_add_right 10 _
      exact fares_complete { p with rx := rx' } hframed hheld hsettles.2 rfl hreply left

theorem pays_none {p : Protocol} (h : p.rx.Framed) (budget : Nat) (received : Bool) :
    Pays (flashPrice (11 * erase) (11 * program))
      (p.rx.savings erase program + budget * bytePrice erase program)
      (pure (p, received) : FlashM (Protocol × Bool))
      fun out left => Fares erase program p budget out.1 left := by
  apply Pays.pure
  exact ⟨h, Nat.le_add_right _ _, Nat.le_add_right _ _⟩

/-- The drain of a poll is paid for by the bytes that it may take. -/
theorem pays_drain {p : Protocol} (h : p.rx.Framed) (budget : Nat) (received : Bool)
    (bytes : List UInt8) :
    Pays (flashPrice (11 * erase) (11 * program))
      (p.rx.savings erase program + budget * bytePrice erase program)
      (p.drain budget received bytes) fun out left => Fares erase program p budget out.1 left := by
  induction bytes generalizing p budget received with
  | nil =>
      rw [Protocol.drain]
      exact pays_none h budget received
  | cons byte bytes ih =>
      cases budget with
      | zero =>
          rw [Protocol.drain]
          exact pays_none h 0 received
      | succ budget =>
          have hfeed : Pays (flashPrice (11 * erase) (11 * program)) _ (p.feed byte)
              (Fares erase program p 1) := pays_feed h byte
          have hfirst := hfeed.frame (budget * bytePrice erase program)
          refine (hfirst.conseq (Nat.le_of_eq ?_) fun _ _ h => h).bind ?_
          · rw [Nat.succ_mul, Nat.add_assoc, Nat.add_comm (bytePrice erase program)]
          · rintro p' left ⟨less, hfares, rfl⟩
            refine (ih hfares.framed budget true).conseq (Nat.add_le_add_right hfares.saved _) ?_
            intro out left hrest
            refine ⟨hrest.framed, hrest.saved, ?_⟩
            have hone := hfares.replied
            have hmore := hrest.replied
            omega

theorem pays_poll {p : Protocol} (h : p.rx.Framed) (nowMs : UInt32) (bytes : List UInt8) :
    Pays (flashPrice (11 * erase) (11 * program))
      (p.rx.savings erase program + uartRxBufferSize * bytePrice erase program)
      (p.poll nowMs bytes)
      fun p' _ => p'.rx.Framed ∧ p'.replied ≤ p.replied + 23 * uartRxBufferSize := by
  refine (pays_drain h uartRxBufferSize false bytes).bind fun out left hfares => .pure ?_
  obtain ⟨htx, -⟩ := Host.pollTail_transfer out.1 nowMs out.2
  unfold Protocol.replied
  rw [pollTail_rx, htx]
  exact ⟨hfares.framed, hfares.replied⟩

end Polls

/-- No poll of a session leaves the receiver out of step. -/
theorem session_framed {flash flash' : Flash} {p p' : Protocol} {polls : List Poll}
    (h : p.rx.Framed) (hsession : session flash p polls = some (flash', p')) : p'.rx.Framed := by
  induction polls generalizing flash p with
  | nil =>
      cases hsession
      exact h
  | cons q polls ih =>
      obtain ⟨p₁, w, hpoll, hrest⟩ := session_first hsession
      have hpays : Pays (flashPrice (11 * 0) (11 * 0)) _ (p.poll q.nowMs q.bytes) _ :=
        pays_poll h q.nowMs q.bytes
      obtain ⟨-, -, hframed, -⟩ := hpays.exists_left hpoll
      exact ih hframed hrest

/-! ## What a poll can cost -/

/-- The pages that were to be erased, and the bytes that were to be programmed. -/
def erases (w : World Flash FlashCall) : Nat := w.spent (flashPrice 1 0)

def programmed (w : World Flash FlashCall) : Nat := w.spent (flashPrice 0 1)

theorem spent_elevenths (erase program : Nat) (w : World Flash FlashCall) :
    w.spent (flashPrice (11 * erase) (11 * program)) = 11 * w.spent (flashPrice erase program) := by
  have hprice : flashPrice (11 * erase) (11 * program) =
      fun call => 11 * flashPrice erase program call := by
    funext call
    cases call with
    | erasePage address => rfl
    | write address data => exact Nat.mul_assoc _ _ _
  rw [hprice, World.spent_mul]

/-- Whatever was received before and whatever comes in, and whatever fails, one poll
asks for no more than 47 pages to be erased and 3823 bytes to be programmed, and
sends no more than 1091 bytes. What it reads of the flash is not counted. -/
theorem poll_work_bounded {flash flash' : Flash} {p : Protocol} {past : List Poll}
    (hsession : session flash protocolInit past = some (flash', p)) (q : Poll) :
    erases ((p.poll q.nowMs q.bytes).run ⟨flash', q.faults, []⟩).2 ≤ 47 ∧
      programmed ((p.poll q.nowMs q.bytes).run ⟨flash', q.faults, []⟩).2 ≤ 3823 ∧
      ∀ p' w, (p.poll q.nowMs q.bytes).run ⟨flash', q.faults, []⟩ = (.done p', w) →
        p'.tx.length ≤ p.tx.length + 1091 := by
  have hinit : protocolInit.rx.Framed := Receiver.Hunting.framed (Or.inl rfl)
  have hframed : p.rx.Framed := session_framed hinit hsession
  have hheld := hframed.held_le
  have hspent (erase program : Nat) :
      11 * ((p.poll q.nowMs q.bytes).run ⟨flash', q.faults, []⟩).2.spent
        (flashPrice erase program) ≤
      p.rx.savings erase program + uartRxBufferSize * bytePrice erase program := by
    rw [← spent_elevenths]
    exact ((pays_poll hframed q.nowMs q.bytes).spent_le _).trans (Nat.le_of_eq (Nat.zero_add _))
  refine ⟨?_, ?_, fun p' w hrun => ?_⟩
  · have hpages := hspent 1 0
    unfold Receiver.savings bytePrice uartRxBufferSize at hpages
    unfold erases
    omega
  · have hbytes := hspent 0 1
    unfold Receiver.savings bytePrice uartRxBufferSize at hbytes
    unfold programmed
    omega
  · have hpays : Pays (flashPrice (11 * 0) (11 * 0)) _ (p.poll q.nowMs q.bytes) _ :=
      pays_poll hframed q.nowMs q.bytes
    obtain ⟨-, -, -, hreplied⟩ := hpays.exists_left hrun
    unfold Protocol.replied uartRxBufferSize at hreplied
    omega

/-- The poll in which a board takes in the announcement of its first image. -/
theorem poll_work_bounded_startPoll :
    erases ((protocolInit.poll startPoll.nowMs startPoll.bytes).run
        ⟨Board.blank.flash, startPoll.faults, []⟩).2 ≤ 47 ∧
      programmed ((protocolInit.poll startPoll.nowMs startPoll.bytes).run
        ⟨Board.blank.flash, startPoll.faults, []⟩).2 ≤ 3823 ∧
      ∀ p' w, (protocolInit.poll startPoll.nowMs startPoll.bytes).run
          ⟨Board.blank.flash, startPoll.faults, []⟩ = (.done p', w) →
        p'.tx.length ≤ protocolInit.tx.length + 1091 :=
  poll_work_bounded (rfl : session Board.blank.flash protocolInit [] = _) startPoll

end OtaBoot
