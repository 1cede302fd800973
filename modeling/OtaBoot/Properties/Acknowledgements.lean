import OtaBoot.DataFrames
import OtaBoot.Foundation.InOrder

/-!
# What an ACK says of a block

A run is written down as the line shows it: the CMD_DATA frames that were
answered by an ACK since the last START_UPDATE, and which of them the slot took.
The transfer context receives them in order, with one exception: the number of
the START_UPDATE counts as the last one, so that a block carrying it is
acknowledged and not stored.
-/

namespace OtaBoot

open Storage InOrder

/-! ## The record of a run -/

namespace Board

/-- The event is answered by an ACK. -/
def acks (b : Board) (e : Event) (seq : UInt16) : Bool :=
  match b.mode, (b.step e).mode with
  | .update u, .update u' => u'.proto.tx = u.proto.tx ++ sendFrame rspAck seq []
  | _, _ => false

/-- The block is programmed at the end of the image, which grows by it. -/
def stores (b : Board) (e : Event) (block : List UInt8) : Bool :=
  match b.mode, (b.step e).mode with
  | .update u, .update u' =>
      0 < block.length ∧
        u'.proto.bytesWritten.toNat = u.proto.bytesWritten.toNat + block.length ∧
        (b.step e).flash.read (u.proto.targetSlot.addr.toNat + u.proto.bytesWritten.toNat)
          block.length = block
  | _, _ => false

end Board

/-- The transfer since its START_UPDATE was accepted. -/
structure Record where
  /-- The number of the START_UPDATE. -/
  start : UInt16
  /-- The CMD_DATA frames that were answered by an ACK. -/
  acked : List DataFrame
  /-- Those that were stored. -/
  stored : List DataFrame
  deriving DecidableEq, Repr

/-- The record after an event. -/
def Record.next (r : Record) (b : Board) (e : Event) : Record :=
  match b.frame e with
  | some (cmd, seq, data) =>
      if ¬ b.acks e seq then r
      else if cmd = cmdStartUpdate then ⟨seq, [], []⟩
      else if cmd = cmdData then
        { r with
          acked := r.acked ++ [⟨seq, data⟩]
          stored := if b.stores e data then r.stored ++ [⟨seq, data⟩] else r.stored }
      else r
  | none => r

/-- A board and the record of what it did. -/
structure Recorded where
  board : Board
  record : Record

namespace Recorded

def step (o : Recorded) (e : Event) : Recorded := ⟨o.board.step e, o.record.next o.board e⟩

/-- A board before it boots. -/
def reset (flash : Flash) : Recorded := ⟨⟨flash, .reset⟩, ⟨0, [], []⟩⟩

/-- The block of a CMD_DATA frame that is answered by an ACK is stored now, or one
with its number was stored before. -/
def BlockKept (o : Recorded) (e : Event) (seq : UInt16) (block : List UInt8) : Prop :=
  o.board.stores e block ∨ ∃ f ∈ o.record.stored, f.seq = seq

/-- After an END_UPDATE that is answered by an ACK the slot holds the blocks. -/
def EndsWith (o : Recorded) (e : Event) (frames : List DataFrame) : Prop :=
  ∀ seq data u, o.board.frame e = some (cmdEndUpdate, seq, data) → o.board.acks e seq →
    o.board.mode = .update u →
    (o.board.step e).flash.read u.proto.targetSlot.addr.toNat u.proto.fwSize.toNat =
      frames.flatMap DataFrame.block

/-- What an ACK would say if every acknowledged block were stored. -/
structure Faithful (o : Recorded) (e : Event) : Prop where
  block : ∀ seq data, o.board.frame e = some (cmdData, seq, data) → o.board.acks e seq →
    o.BlockKept e seq data
  image : o.EndsWith e (firsts DataFrame.seq o.record.acked)

/-- What an ACK says. -/
structure Accounted (o : Recorded) (e : Event) : Prop where
  block : ∀ seq data, o.board.frame e = some (cmdData, seq, data) → o.board.acks e seq →
    (o.BlockKept e seq data ↔ ¬ (o.record.stored = [] ∧ seq = o.record.start))
  image : o.EndsWith e (firsts DataFrame.seq (without DataFrame.seq o.record.start o.record.acked))

end Recorded

/-! ## One event -/

section Frames

variable {b : Board} {e : Event} {u u' : Session} {cmd : UInt8} {seq : UInt16} {data : List UInt8}

theorem Board.acks_iff (hmode : b.mode = .update u) (hmode' : (b.step e).mode = .update u') :
    b.acks e seq ↔ u'.proto.tx = u.proto.tx ++ sendFrame rspAck seq [] := by
  simp [acks, hmode, hmode']

theorem Board.stores_iff (hmode : b.mode = .update u) (hmode' : (b.step e).mode = .update u')
    (block : List UInt8) :
    b.stores e block ↔
      0 < block.length ∧
        u'.proto.bytesWritten.toNat = u.proto.bytesWritten.toNat + block.length ∧
        (b.step e).flash.read (u.proto.targetSlot.addr.toNat + u.proto.bytesWritten.toNat)
          block.length = block := by
  simp [stores, hmode, hmode']

/-- Without a frame, a transfer under way stays as it is. -/
theorem Board.kept_of_no_frame (hb : b.Bounded) (hframe : b.frame e = none)
    (hmode' : (b.step e).mode = .update u') (hstate : u'.proto.state = .receiving) :
    (b.step e).flash = b.flash ∧
      ∃ u, b.mode = .update u ∧ u'.proto.toTransfer = u.proto.toTransfer := by
  have heffect := step_effect_any hb e
  generalize b.step e = b' at heffect hmode'
  cases heffect with
  | ignored => exact ⟨rfl, u', hmode', rfl⟩
  | reset | restarted | returned => cases hmode'
  | @boot _ _ _ _ boot? =>
      cases boot? with
      | none => cases hmode'
      | some boot =>
          cases boot with
          | updateMode limitMs next =>
              cases hmode'
              exact absurd hstate init_not_receiving
          | jump slot => cases hmode'
  | @poll u nowMs hmode =>
      cases hmode'
      exact ⟨rfl, u, hmode, rfl⟩
  | @byte u nowMs budget received byte faults after proto? hmode hdrain heffect =>
      -- nothing was completed
      have haction : u.proto.byteAction b.flash byte = .answer := by
        unfold Protocol.byteAction
        cases hevent : (u.proto.rx.feed byte).2 with
        | pending | overlong | badCrc => rfl
        | frame cmd seq data => simp [frame, hmode, hdrain, hevent] at hframe
      rw [haction] at heffect
      cases heffect with
      | performed htransfer =>
          cases hmode'
          exact ⟨rfl, u, hmode, htransfer⟩
      | failed hstopped => exact hstopped.elim
      | cut hstopped => exact hstopped.elim
  | @listened u proto hmode htail =>
      cases hmode'
      refine ⟨rfl, u, hmode, htail.resolve_right ?_⟩
      rintro ⟨-, habort⟩
      change proto.toTransfer.state = .receiving at hstate
      rw [habort] at hstate
      exact u.proto.abort_not_receiving hstate
  | @confirm slot faults after running => cases running <;> cases hmode'

/-! ## What an ACK leaves -/

/-- A block that is stored is seen to be stored. -/
theorem Board.stores_of_image (hmode : b.mode = .update u)
    (hmode' : (b.step e).mode = .update u') (hb : u.proto.Bounded)
    (hblock : u.proto.Continues data)
    (himage : (b.step e).flash = (Action.store seq data).image b.flash u.proto.toTransfer)
    (htransfer : u'.proto.toTransfer =
      (Action.store seq data).success b.flash u.proto.toTransfer) : b.stores e data := by
  rw [stores_iff hmode hmode']
  refine ⟨hblock.nonempty, ?_, ?_⟩
  · rw [htransfer]
    exact Transfer.toNat_advanced hb hblock
  · rw [himage, ← Transfer.toNat_blockAddr hb]
    exact Memory.read_store_self _ _ _

/-- Where the image does not grow, nothing is stored. -/
theorem Board.not_stores_of_same (hmode : b.mode = .update u)
    (hmode' : (b.step e).mode = .update u')
    (htransfer : u'.proto.toTransfer = u.proto.toTransfer) (block : List UInt8) :
    ¬ b.stores e block := by
  rw [stores_iff hmode hmode', htransfer]
  omega

/-- A block is stored under the number that is expected. -/
theorem Transfer.seq_of_store {t : Transfer} {flash : Flash}
    (h : t.action flash cmdData seq data = .store seq data) :
    seq = t.expectedSeq ∧ seq ≠ t.lastSeq := by
  rw [action_cmdData] at h
  split at h
  · cases h
  split at h
  · cases h
  next hnew =>
    split at h
    · cases h
    next hseq => exact ⟨Decidable.not_not.mp hseq, hnew⟩

/-- An acknowledged frame was carried out, or repeats the last block, or leaves
the image alone. -/
theorem Board.acked_cases (hb : b.Bounded) (hframe : b.frame e = some (cmd, seq, data))
    (hmode : b.mode = .update u) (hmode' : (b.step e).mode = .update u')
    (hack : b.acks e seq) :
    (∃ a, u.proto.toTransfer.action b.flash cmd seq data = a ∧
        Transfer.Decided b.flash seq data cmd a ∧ a.acks = some seq ∧
        a.Justified b.flash u.proto.toTransfer ∧
        (b.step e).flash = a.image b.flash u.proto.toTransfer ∧
        u'.proto.toTransfer = a.success b.flash u.proto.toTransfer) ∨
      (cmd = cmdData ∧ u.proto.state = .receiving ∧ seq = u.proto.lastSeq ∧
        (b.step e).flash = b.flash ∧ u'.proto.toTransfer = u.proto.toTransfer) ∨
      cmd = cmdAbort ∨ cmd = cmdGetInfo := by
  obtain ⟨rx, hlen, heffect, hanswer⟩ := handled hb hframe hmode hmode'
  rw [acks_iff hmode hmode'] at hack
  rcases hanswer.of_ack hack with ⟨hacks, himage, htransfer⟩ | ⟨rfl, hstate, hseq⟩ | hcmd | hcmd
  · exact .inl ⟨_, rfl, u.proto.toTransfer.action_decided b.flash cmd seq data, hacks,
      Transfer.action_justified (hb u hmode) hlen, himage, htransfer⟩
  · change seq = u.proto.lastSeq at hseq
    rw [Transfer.action_repeated _ _ hseq] at heffect
    generalize hafter : (b.step e).flash = after at heffect
    cases heffect with
    | performed htransfer => exact .inr (.inl ⟨rfl, hstate, hseq, rfl, htransfer⟩)
    | failed hstopped => exact hstopped.elim
  · exact .inr (.inr (.inl hcmd))
  · exact .inr (.inr (.inr hcmd))

/-- The two ways for a CMD_DATA frame to be acknowledged. -/
theorem Board.data_acked (hb : b.Bounded) (hframe : b.frame e = some (cmdData, seq, data))
    (hmode : b.mode = .update u) (hmode' : (b.step e).mode = .update u')
    (hack : b.acks e seq) :
    u.proto.state = .receiving ∧
      ((b.stores e data ∧ u.proto.Continues data ∧ seq = u.proto.expectedSeq ∧
          seq ≠ u.proto.lastSeq ∧
          (b.step e).flash = (Action.store seq data).image b.flash u.proto.toTransfer ∧
          u'.proto.toTransfer = (Action.store seq data).success b.flash u.proto.toTransfer) ∨
        (¬ b.stores e data ∧ seq = u.proto.lastSeq ∧ (b.step e).flash = b.flash ∧
          u'.proto.toTransfer = u.proto.toTransfer)) := by
  rcases acked_cases hb hframe hmode hmode' hack with
    ⟨a, haction, hdecided, hacks, hjustified, himage, htransfer⟩ |
      ⟨-, hstate, hseq, hflash, htransfer⟩ | hcmd | hcmd
  · -- what is carried out for a CMD_DATA frame is a block
    generalize hcmd : cmdData = cmd at hdecided
    cases hdecided with
    | answer | abort => cases hacks
    | start | finish => exact absurd hcmd (by decide)
    | store =>
        obtain ⟨hseq, hnew⟩ := Transfer.seq_of_store haction
        have hstores := stores_of_image hmode hmode' (hb u hmode) hjustified.2 himage htransfer
        exact ⟨hjustified.1, .inl ⟨hstores, hjustified.2, hseq, hnew, himage, htransfer⟩⟩
  · have hstores := not_stores_of_same hmode hmode' htransfer data
    exact ⟨hstate, .inr ⟨hstores, hseq, hflash, htransfer⟩⟩
  all_goals exact absurd hcmd (by decide)

theorem Board.exists_of_acks (hack : b.acks e seq) :
    ∃ u u', b.mode = .update u ∧ (b.step e).mode = .update u' := by
  unfold acks at hack
  split at hack
  next u u' hmode hmode' => exact ⟨u, u', hmode, hmode'⟩
  next => cases hack

/-- An END_UPDATE is acknowledged for an image that is complete, and leaves it. -/
theorem Board.end_acked (hb : b.Bounded) (hframe : b.frame e = some (cmdEndUpdate, seq, data))
    (hmode : b.mode = .update u) (hack : b.acks e seq) :
    u.proto.state = .receiving ∧ u.proto.bytesWritten = u.proto.fwSize ∧
      Memory.AgreeOn u.proto.targetSlot.addr.toNat 491520 (b.step e).flash b.flash := by
  obtain ⟨_, u', -, hmode'⟩ := exists_of_acks hack
  have hslot := u.proto.targetSlot.addr_bounds
  rcases acked_cases hb hframe hmode hmode' hack with
    ⟨a, -, hdecided, hacks, hjustified, himage, -⟩ | ⟨hcmd, -⟩ | hcmd | hcmd
  · generalize hcmd : cmdEndUpdate = cmd at hdecided
    cases hdecided with
    | answer | abort => cases hacks
    | start | store => exact absurd hcmd (by decide)
    | finish =>
        refine ⟨hjustified.1, hjustified.2.1, ?_⟩
        rw [himage]
        exact (completeImage_stopped _ _).agreeOn (by omega)
  all_goals exact absurd hcmd (by decide)

/-- Whatever else a frame leads to, a transfer that is still under way is kept. -/
theorem Board.kept_of_frame (hb : b.Bounded) (hframe : b.frame e = some (cmd, seq, data))
    (hmode : b.mode = .update u) (hmode' : (b.step e).mode = .update u')
    (hstate : u'.proto.state = .receiving)
    (hother : b.acks e seq → cmd ≠ cmdStartUpdate ∧ cmd ≠ cmdData) :
    u'.proto.toTransfer = u.proto.toTransfer ∧
      Memory.AgreeOn u.proto.targetSlot.addr.toNat 491520 (b.step e).flash b.flash := by
  obtain ⟨rx, -, heffect, -⟩ := handled hb hframe hmode hmode'
  rw [acks_iff hmode hmode'] at hother
  have hdecided := u.proto.toTransfer.action_decided b.flash cmd seq data
  have hslot := u.proto.targetSlot.addr_bounds
  generalize hafter : (b.step e).flash = after at heffect
  generalize haction : u.proto.toTransfer.action b.flash cmd seq data = a at heffect hdecided
  cases heffect with
  | performed htransfer _ htx =>
      rw [htransfer] at hstate
      cases hdecided with
      | answer => exact ⟨htransfer, .refl _ _ _⟩
      | abort => exact absurd hstate u.proto.abort_not_receiving
      | start => exact absurd rfl (hother (htx seq rfl)).1
      | store => exact absurd rfl (hother (htx seq rfl)).2
      | finish => cases hstate
  | failed hstopped _ htransfer =>
      rw [htransfer] at hstate
      cases hdecided with
      | answer | abort => exact hstopped.elim
      | start => exact ⟨htransfer, WriteStopped.agreeOn hstopped (by omega)⟩
      | store | finish => exact absurd hstate u.proto.abort_not_receiving

end Frames

/-! ## The record and the transfer context -/

namespace Record

/-- What an event makes of a transfer that is under way afterwards, and of its
record. -/
inductive Advances (before : Flash) (t : Transfer) (r : Record) :
    Flash → Transfer → Record → Prop
  | kept {after : Flash}
      (hagree : Memory.AgreeOn t.targetSlot.addr.toNat 491520 after before) :
      Advances before t r after t r
  | started {after : Flash} {seq : UInt16} {slot : Slot} {size crc ver : UInt32} :
      Advances before t r after (t.started seq slot size crc ver) ⟨seq, [], []⟩
  | stored {f : DataFrame} (hstate : t.state = .receiving) (hblock : t.Continues f.block)
      (hseq : f.seq = t.expectedSeq) :
      Advances before t r ((Action.store f.seq f.block).image before t)
        ((Action.store f.seq f.block).success before t)
        { r with acked := r.acked ++ [f], stored := r.stored ++ [f] }
  | repeated {f : DataFrame} (hseq : f.seq = t.lastSeq) :
      Advances before t r before t { r with acked := r.acked ++ [f] }

end Record

section Record

variable {b : Board} {e : Event} {u' : Session} {r : Record}

/-- One event. -/
theorem Record.advances (hb : b.Bounded) (hmode' : (b.step e).mode = .update u')
    (hstate : u'.proto.state = .receiving) (r : Record) :
    ∃ u, b.mode = .update u ∧ r.Advances b.flash u.proto.toTransfer (b.step e).flash
      u'.proto.toTransfer (r.next b e) := by
  cases hframe : b.frame e with
  | none =>
      obtain ⟨hflash, u, hmode, htransfer⟩ := Board.kept_of_no_frame hb hframe hmode' hstate
      refine ⟨u, hmode, ?_⟩
      rw [hflash, htransfer, next, hframe]
      exact .kept (.refl _ _ _)
  | some frame =>
      obtain ⟨cmd, seq, data⟩ := frame
      obtain ⟨u, -, -, -, -, -, -, hmode, -⟩ := Board.frame_eq_some hframe
      refine ⟨u, hmode, ?_⟩
      by_cases hother : b.acks e seq → cmd ≠ cmdStartUpdate ∧ cmd ≠ cmdData
      · obtain ⟨htransfer, hagree⟩ := Board.kept_of_frame hb hframe hmode hmode' hstate hother
        have hnext : r.next b e = r := by
          rw [next, hframe]
          dsimp only
          split
          · rfl
          next hack =>
            obtain ⟨hstart, hdata⟩ := hother (not_not.mp hack)
            rw [if_neg hstart, if_neg hdata]
        rw [htransfer, hnext]
        exact .kept hagree
      · obtain ⟨hack, hcmd⟩ := Classical.not_imp.mp hother
        by_cases hstart : cmd = cmdStartUpdate
        · subst hstart
          obtain ⟨rx, -, -, hanswer⟩ := Board.handled hb hframe hmode hmode'
          obtain ⟨-, -, -, htransfer⟩ :=
            hanswer.of_start_ack ((Board.acks_iff hmode hmode').mp hack)
          have hnext : r.next b e = ⟨seq, [], []⟩ := by simp [next, hframe, hack]
          rw [htransfer, hnext]
          exact .started
        · obtain rfl : cmd = cmdData := by
            by_contra hdata
            exact hcmd ⟨hstart, hdata⟩
          obtain ⟨hreceiving, hdone⟩ := Board.data_acked hb hframe hmode hmode' hack
          rcases hdone with
            ⟨hstores, hblock, hseq, -, himage, htransfer⟩ | ⟨hstores, hseq, hflash, htransfer⟩
          · have hnext : r.next b e =
                ⟨r.start, r.acked ++ [⟨seq, data⟩], r.stored ++ [⟨seq, data⟩]⟩ := by
              simp [next, hframe, hack, hstart, hstores]
            rw [himage, htransfer, hnext]
            exact .stored (f := ⟨seq, data⟩) hreceiving hblock hseq
          · have hnext : r.next b e = ⟨r.start, r.acked ++ [⟨seq, data⟩], r.stored⟩ := by
              simp [next, hframe, hack, hstart, hstores]
            rw [hflash, htransfer, hnext]
            exact .repeated (f := ⟨seq, data⟩) hseq

end Record

/-! ## What the record says of the slot -/

/-- The slot and the transfer context agree with the record. -/
structure Record.Agrees (r : Record) (flash : Flash) (t : Transfer) : Prop where
  received : Received DataFrame.seq (· + 1) r.start r.acked r.stored
  lastSeq : t.lastSeq = last DataFrame.seq r.start r.stored
  expectedSeq : t.expectedSeq = t.lastSeq + 1
  blocks : ∀ f ∈ r.stored, 8 ≤ f.block.length
  content : flash.read t.targetSlot.addr.toNat t.bytesWritten.toNat =
    r.stored.flatMap DataFrame.block

section Agrees

variable {before after flash : Flash} {t t' : Transfer} {r r' : Record}

theorem iterate_succ_seq (n : Nat) (seq : UInt16) : (· + 1)^[n] seq = seq + UInt16.ofNat n := by
  induction n with
  | zero => simp
  | succ n ih =>
      rw [Function.iterate_succ_apply', ih, UInt16.ofNat_add, ← UInt16.add_assoc]
      rfl

/-- Numbers come round after 65536 frames. -/
theorem seq_iterate_inj {seq : UInt16} {i j : Nat} (hi : i < 65536) (hj : j < 65536)
    (h : (· + 1)^[i] seq = (· + 1)^[j] seq) : i = j := by
  rw [iterate_succ_seq, iterate_succ_seq, UInt16.add_right_inj] at h
  have hnat := congrArg UInt16.toNat h
  rwa [UInt16.toNat_ofNat_of_lt' hi, UInt16.toNat_ofNat_of_lt' hj] at hnat

theorem length_le_of_blocks {frames : List DataFrame} (h : ∀ f ∈ frames, 8 ≤ f.block.length) :
    8 * frames.length ≤ (frames.flatMap DataFrame.block).length := by
  induction frames with
  | nil => exact Nat.le_refl _
  | cons f frames ih =>
      rw [List.forall_mem_cons] at h
      have hrest := ih h.2
      rw [List.flatMap_cons, List.length_append, List.length_cons]
      omega

/-- There is room for so many blocks only. -/
theorem Record.Agrees.length_le (h : r.Agrees flash t) (hb : t.Bounded) :
    r.stored.length ≤ 61440 := by
  have hlength := congrArg List.length h.content
  rw [Memory.length_read] at hlength
  have hblocks := length_le_of_blocks h.blocks
  have hwritten := hb.written
  have hsize := hb.size
  omega

/-- What is stored are the first blocks of their numbers. -/
theorem Record.Agrees.firsts_eq (h : r.Agrees flash t) (hb : t.Bounded) :
    firsts DataFrame.seq (without DataFrame.seq r.start r.acked) = r.stored := by
  have hlength := h.length_le hb
  exact h.received.firsts_eq fun i j hi hj => seq_iterate_inj (by omega) (by omega)

theorem Record.Agrees.advance (h : t.state = .receiving → r.Agrees before t) (hb : t.Bounded)
    (hadvances : r.Advances before t after t' r') (hstate : t'.state = .receiving) :
    r'.Agrees after t' := by
  cases hadvances with
  | kept hagree =>
      have hr := h hstate
      have hwritten := hb.written
      have hsize := hb.size
      have hcontent := (hagree.mono (Nat.le_refl _) (by omega)).read_eq.trans hr.content
      exact { hr with content := hcontent }
  | started =>
      exact {
        received := .none
        lastSeq := rfl
        expectedSeq := rfl
        blocks := fun f hf => absurd hf List.not_mem_nil
        content := rfl }
  | @stored f hreceiving hblock hseq =>
      have hr := h hreceiving
      have hwritten := Transfer.toNat_advanced hb hblock
      exact {
        received := hr.received.next (by rw [hseq, hr.expectedSeq, hr.lastSeq])
        lastSeq := (last_append DataFrame.seq r.start r.stored f).symm
        expectedSeq := rfl
        blocks := by
          intro f' hf'
          rcases List.mem_append.mp hf' with hf' | hf'
          · exact hr.blocks f' hf'
          · obtain rfl := List.mem_singleton.mp hf'
            have hpos := hblock.nonempty
            have haligned := hblock.aligned
            omega
        content := by
          have hread := Transfer.read_stored hb hblock before f.seq
          rw [hr.content, ← hwritten] at hread
          rw [List.flatMap_append, List.flatMap_singleton]
          exact hread }
  | repeated hseq =>
      have hr := h hstate
      exact { hr with received := hr.received.again (hseq.trans hr.lastSeq) }

end Agrees

namespace Recorded

/-- While a transfer is under way, the record is true of it. -/
def Agrees (o : Recorded) : Prop :=
  ∀ u, o.board.mode = .update u → u.proto.state = .receiving →
    o.record.Agrees o.board.flash u.proto.toTransfer

theorem agrees_reset (flash : Flash) : (reset flash).Agrees := by
  intro u hmode
  cases hmode

section Step

variable {o : Recorded}

theorem agrees_step (hb : o.board.Bounded) (h : o.Agrees) (e : Event) : (o.step e).Agrees := by
  intro u' hmode' hstate
  obtain ⟨u, hmode, hadvances⟩ := Record.advances hb hmode' hstate o.record
  exact Record.Agrees.advance (h u hmode) (hb u hmode) hadvances hstate

/-- A CMD_DATA frame that is acknowledged. -/
theorem block_accounted (hb : o.board.Bounded) (h : o.Agrees) {e : Event} {seq : UInt16}
    {data : List UInt8} (hframe : o.board.frame e = some (cmdData, seq, data))
    (hack : o.board.acks e seq) :
    o.BlockKept e seq data ↔ ¬ (o.record.stored = [] ∧ seq = o.record.start) := by
  obtain ⟨u, u', hmode, hmode'⟩ := Board.exists_of_acks hack
  obtain ⟨hreceiving, hdone⟩ := Board.data_acked hb hframe hmode hmode' hack
  have hlast := (h u hmode hreceiving).lastSeq
  rcases hdone with ⟨hstores, -, -, hnew, -⟩ | ⟨hstores, hseq, -⟩
  · refine iff_of_true (.inl hstores) ?_
    rintro ⟨hempty, rfl⟩
    rw [hempty, last_nil] at hlast
    exact hnew hlast.symm
  · by_cases hempty : o.record.stored = []
    · rw [hempty, last_nil] at hlast
      refine iff_of_false ?_ (not_not.mpr ⟨hempty, hseq.trans hlast⟩)
      rintro (h | ⟨f, hf, -⟩)
      · exact hstores h
      · rw [hempty] at hf
        cases hf
    · -- the block stored last has this number
      obtain ⟨f, hf, hkey⟩ := exists_of_last DataFrame.seq o.record.start hempty
      exact iff_of_true (.inr ⟨f, hf, hkey.trans (hlast.symm.trans hseq.symm)⟩)
        fun hnone => hempty hnone.1

/-- An END_UPDATE that is acknowledged. -/
theorem image_accounted (hb : o.board.Bounded) (h : o.Agrees) (e : Event) :
    o.EndsWith e
      (firsts DataFrame.seq (without DataFrame.seq o.record.start o.record.acked)) := by
  intro seq data u hframe hack hmode
  obtain ⟨hreceiving, hwritten, hagree⟩ := Board.end_acked hb hframe hmode hack
  have hr := h u hmode hreceiving
  have hsize := (hb u hmode).size
  rw [hr.firsts_eq (hb u hmode), ← hr.content, hwritten]
  exact (hagree.mono (Nat.le_refl _) (by omega)).read_eq

theorem accounted (hb : o.board.Bounded) (h : o.Agrees) (e : Event) : o.Accounted e :=
  ⟨fun _ _ hframe hack => block_accounted hb h hframe hack, image_accounted hb h e⟩

end Step

end Recorded

/-! ## Runs -/

namespace Recorded

theorem run_board (o : Recorded) (events : List Event) :
    (Transition.run step o events).board = o.board.run events := by
  induction events generalizing o with
  | nil => rfl
  | cons e events ih => exact ih (o.step e)

theorem agrees_run {o : Recorded} (hb : o.board.Bounded) (h : o.Agrees) (events : List Event) :
    (Transition.run step o events).Agrees := by
  induction events generalizing o with
  | nil => exact h
  | cons e events ih => exact ih (Board.bounded_step hb e) (agrees_step hb h e)

end Recorded

/-- Along every run an acknowledged block is stored, at once or under the same
number before, unless it carries the number of the START_UPDATE and comes before
anything is stored; and an acknowledged END_UPDATE finds the first block of each
other number in the slot, in order. -/
theorem acks_accounted (flash₀ : Flash) (events : List Event) :
    Transition.Guarded Recorded.step Recorded.Accounted (.reset flash₀) events := by
  have hstart : (Recorded.reset flash₀).board.Bounded ∧ (Recorded.reset flash₀).Agrees :=
    ⟨Board.bounded_reset flash₀, Recorded.agrees_reset flash₀⟩
  refine Transition.Guarded.of_invariant (fun o => o.board.Bounded ∧ o.Agrees) ?_ ?_ hstart events
  · intro o e ⟨hb, h⟩
    exact ⟨Board.bounded_step hb e, Recorded.agrees_step hb h e⟩
  · intro o e ⟨hb, h⟩
    exact Recorded.accounted hb h e

/-! ## The number of the START_UPDATE -/

/-- A block that carries the last number is acknowledged and changes nothing. -/
theorem Board.step_repeated {b : Board} {u : Session} {nowMs : UInt32} {budget : Nat}
    {received : Bool} {byte : UInt8} {data : List UInt8} (faults : List Fault)
    (hmode : b.mode = .update u) (hdrain : u.drain = some (nowMs, budget + 1, received))
    (hevent : (u.proto.rx.feed byte).2 = .frame cmdData u.proto.lastSeq data)
    (hstate : u.proto.state = .receiving) :
    ∃ proto', b.step (.byte byte faults) =
        ⟨b.flash, .update { u with proto := proto', drain := some (nowMs, budget, true) }⟩ ∧
      proto'.toTransfer = u.proto.toTransfer ∧
      proto'.tx = u.proto.tx ++ sendFrame rspAck u.proto.lastSeq [] := by
  have hfeed : u.proto.feed byte =
      pure ({ u.proto with
        rx := (u.proto.rx.feed byte).1
        cntFramesOk := u.proto.cntFramesOk + 1 }.sendAck u.proto.lastSeq) := by
    rw [Protocol.feed, hevent]
    exact dispatch_stored (p := { u.proto with rx := (u.proto.rx.feed byte).1 }) hstate rfl
  simp only [step, hmode, hdrain, hfeed]
  exact ⟨_, rfl, rfl, rfl⟩

/-- A first block under the number of the START_UPDATE is acknowledged and lost. -/
theorem Recorded.unfaithful {o : Recorded} {u : Session} {nowMs : UInt32} {budget : Nat}
    {received : Bool} {byte : UInt8} {data : List UInt8} (faults : List Fault) (h : o.Agrees)
    (hmode : o.board.mode = .update u) (hdrain : u.drain = some (nowMs, budget + 1, received))
    (hevent : (u.proto.rx.feed byte).2 = .frame cmdData u.proto.lastSeq data)
    (hstate : u.proto.state = .receiving) (hnothing : u.proto.bytesWritten = 0) :
    ¬ o.Faithful (.byte byte faults) := by
  obtain ⟨proto', hstep, htransfer, htx⟩ :=
    Board.step_repeated faults hmode hdrain hevent hstate
  have hmode' := congrArg Board.mode hstep
  have hframe : o.board.frame (.byte byte faults) = some (cmdData, u.proto.lastSeq, data) := by
    simp [Board.frame, hmode, hdrain, hevent]
  intro hfaithful
  rcases hfaithful.block _ _ hframe ((Board.acks_iff hmode hmode').mpr htx) with
    hstores | ⟨f, hf, -⟩
  · exact Board.not_stores_of_same hmode hmode' htransfer data hstores
  · -- nothing was stored before
    have hr := h u hmode hstate
    have hblocks := length_le_of_blocks hr.blocks
    rw [← hr.content, hnothing, Memory.length_read] at hblocks
    have hpos := List.length_pos_of_mem hf
    change 8 * o.record.stored.length ≤ 0 at hblocks
    omega

/-- A host that numbers its blocks from 0, as it numbered the START_UPDATE. -/
def startNumbered : List Event :=
  [.boot false 0 [], .poll 0] ++
    frameEvents cmdStartUpdate 0 (startPayload 8 (crc32Compute vectorsOnly) 1 .b) ++
    frameEvents cmdData 0 vectorsOnly

/-- Its first block is acknowledged and not stored. -/
theorem startNumbered_lost :
    ¬ Transition.Guarded Recorded.step Recorded.Faithful (.reset Board.blank.flash)
      startNumbered := by
  have haction := action_start (t := protocolInit.toTransfer) Board.blank.flash 0
    (crc32Compute vectorsOnly) 1 (by decide : (8 : UInt32) ≠ 0) (by decide)
  rw [Board.blank_freeSlot] at haction
  obtain ⟨proto, hstart, htransfer, hhunting⟩ := Board.run_frame Board.blank.flash waitingSession
    0 false cmdStartUpdate 0 (startPayload 8 (crc32Compute vectorsOnly) 1 .b)
    (.inl (rfl : protocolInit.rx.state = .magic0)) (by decide) (by decide : _ ≤ 512)
    Transfer.Bounded.init (by rw [haction]; trivial)
  rw [haction] at hstart htransfer
  obtain ⟨front, byte, rx, hframe, -, hfront, -, -, hevent⟩ := Board.run_frame_front
    ((Action.start 0 8 (crc32Compute vectorsOnly) 1).image Board.blank.flash
      protocolInit.toTransfer)
    waitingSession 0 true cmdData 0 vectorsOnly (.inl hhunting) (by decide) (by decide : _ ≤ 485)
  rw [startNumbered, hframe, ← List.append_assoc, Transition.guarded_append]
  rintro ⟨-, hlast, -⟩
  have hboard : (Board.blank.run ([.boot false 0 [], .poll 0] ++
      frameEvents cmdStartUpdate 0 (startPayload 8 (crc32Compute vectorsOnly) 1 .b) ++
      front.map (Event.byte · []))).mode =
      .update (waitingSession.draining { proto with rx } 0 467 true) := by
    rw [Board.run_append, Board.run_append, Board.run_waiting, hstart]
    exact congrArg Board.mode hfront
  have hmode := (congrArg Board.mode (Recorded.run_board (.reset Board.blank.flash) _)).trans
    hboard
  have hrepeats : (rx.feed byte).2 = .frame cmdData proto.lastSeq vectorsOnly := by
    rw [htransfer]
    exact hevent
  have hagrees := Recorded.agrees_run (Board.bounded_reset _)
    (Recorded.agrees_reset Board.blank.flash)
  refine Recorded.unfaithful [] (hagrees _) hmode rfl hrepeats ?_ ?_ hlast
  · change proto.state = .receiving
    rw [htransfer]
    rfl
  · change proto.bytesWritten = 0
    rw [htransfer]
    rfl

end OtaBoot
