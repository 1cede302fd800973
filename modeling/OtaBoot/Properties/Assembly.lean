import OtaBoot.Firmware.RxBuffer
import OtaBoot.Properties.Framing
import OtaBoot.Properties.Silence

/-!
# The assembly of a frame

What the receiver has stored of a frame and what it still expects of it add up to
the length that the header announces. So the buffer is never left, and any
stretch of bytes longer than a frame brings the receiver back to its search.
-/

namespace OtaBoot

open Storage RxBuffer

/-! ## Index and count -/

/-- Between two positions of a frame, with bytes to come. -/
structure Receiver.Within (rx : Receiver) (first last : Nat) : Prop where
  start : first ≤ rx.index.toNat
  more : 1 ≤ rx.expected.toNat
  sum : rx.index.toNat + rx.expected.toNat = last

/-- Index, count and the LENGTH in the buffer, state by state. -/
def Receiver.Framed (rx : Receiver) : Prop :=
  match rx.state with
  | .magic0 | .magic1 => True
  | .header => rx.Within 2 7
  | .data => rx.len.toNat ≤ 1024 ∧ rx.Within 7 (7 + rx.len.toNat)
  | .crc => rx.len.toNat ≤ 1024 ∧ rx.Within 7 (11 + rx.len.toNat)

/-- The access stays in the buffer, or counts down from a byte to come. -/
def RxBuffer.RxAccess.Sound : RxAccess → Prop
  | .store index _ => index < rxFrameSize
  | .decrement expected => 1 ≤ expected.toNat

example : rxFrameSize = 1035 := rfl

section Push

variable {rx : Receiver} {first last : Nat}

theorem Receiver.Within.index_push (h : rx.Within first last) (hlast : last ≤ 1035)
    (byte : UInt8) : (rx.push byte).index.toNat = rx.index.toNat + 1 := by
  have hsum := h.sum
  exact toNat_index_push (by omega) byte

theorem Receiver.Within.expected_push (h : rx.Within first last) (byte : UInt8) :
    (rx.push byte).expected.toNat + 1 = rx.expected.toNat := by
  rw [toNat_expected_push h.more]
  exact Nat.sub_add_cancel h.more

/-- A byte that is not the last one. -/
theorem Receiver.Within.push (h : rx.Within first last) (hlast : last ≤ 1035) {byte : UInt8}
    (hmore : (rx.push byte).expected ≠ 0) : (rx.push byte).Within first last := by
  have hindex := h.index_push hlast byte
  have hexpected := h.expected_push byte
  have hstart := h.start
  have hsum := h.sum
  refine ⟨by omega, ?_, by omega⟩
  exact Nat.pos_of_ne_zero fun hzero => hmore (UInt32.toNat_inj.mp hzero)

/-- The last byte. -/
theorem Receiver.Within.push_last (h : rx.Within first last) (hlast : last ≤ 1035) {byte : UInt8}
    (hzero : (rx.push byte).expected = 0) : (rx.push byte).index.toNat = last := by
  have hindex := h.index_push hlast byte
  have hexpected := h.expected_push byte
  have hsum := h.sum
  rw [hzero] at hexpected
  change 0 + 1 = _ at hexpected
  omega

/-- Behind the header, a byte leaves LENGTH alone. -/
theorem Receiver.Within.len_push (h : rx.Within 7 last) (byte : UInt8) :
    (rx.push byte).len = rx.len := by
  have hstart := h.start
  have hkept (a : Nat) (ha : a < 7) : (rx.push byte).frame a = rx.frame a :=
    Memory.store_apply_of_lt _ _ _ _ (Nat.lt_of_lt_of_le ha hstart)
  unfold Receiver.len
  rw [hkept frameOffLength (by decide), hkept (frameOffLength + 1) (by decide)]

end Push

/-! ## One byte -/

section Step

variable {rx : Receiver}

theorem Receiver.Hunting.framed (h : rx.Hunting) : rx.Framed := by
  unfold Receiver.Framed
  rcases h with h | h <;> simp only [h]

theorem Receiver.framed_header (h : rx.state = .header) : rx.Framed ↔ rx.Within 2 7 := by
  simp only [Receiver.Framed, h]

theorem Receiver.framed_data (h : rx.state = .data) :
    rx.Framed ↔ rx.len.toNat ≤ 1024 ∧ rx.Within 7 (7 + rx.len.toNat) := by
  simp only [Receiver.Framed, h]

theorem Receiver.framed_crc (h : rx.state = .crc) :
    rx.Framed ↔ rx.len.toNat ≤ 1024 ∧ rx.Within 7 (11 + rx.len.toNat) := by
  simp only [Receiver.Framed, h]

/-- The header is in, and a payload follows. -/
theorem Receiver.framed_enter_data (hlen : rx.len.toNat ≤ 1024) (hmore : rx.len ≠ 0)
    (hindex : rx.index.toNat = 7) :
    ({ rx with expected := rx.len.toUInt32, state := .data } : Receiver).Framed := by
  refine (framed_data rfl).mpr ⟨hlen, ?_, ?_, ?_⟩
  · exact Nat.le_of_eq hindex.symm
  · rw [UInt16.toNat_toUInt32]
    exact Nat.pos_of_ne_zero fun hzero => hmore (UInt16.toNat_inj.mp hzero)
  · rw [UInt16.toNat_toUInt32, hindex]
    rfl

/-- The payload is in, and the CRC follows. -/
theorem Receiver.framed_enter_crc (hlen : rx.len.toNat ≤ 1024)
    (hindex : rx.index.toNat = 7 + rx.len.toNat) :
    ({ rx with expected := UInt32.ofNat frameCrcSize, state := .crc } : Receiver).Framed := by
  have hexpected : (UInt32.ofNat frameCrcSize).toNat = 4 := rfl
  refine (framed_crc rfl).mpr ⟨hlen, ?_, ?_, ?_⟩
  · exact hindex ▸ Nat.le_add_right 7 _
  · exact hexpected ▸ by decide
  · change rx.index.toNat + 4 = 11 + rx.len.toNat
    omega

/-- What a byte can lead to. -/
inductive Receiver.Fed (rx : Receiver) (byte : UInt8) : Receiver → Prop
  | hunting {rx' : Receiver} (hnext : rx'.Hunting) : Fed rx byte rx'
  | found (h : rx.Hunting) (frame : Memory UInt8) : Fed rx byte ⟨.header, frame, 2, 5⟩
  | more (hbusy : ¬ rx.Hunting) (hmore : (rx.push byte).expected ≠ 0) :
      Fed rx byte (rx.push byte)
  | header (hstate : rx.state = .header) (hlast : (rx.push byte).expected = 0)
      (hlen : (rx.push byte).len.toNat ≤ 1024) (hpayload : (rx.push byte).len ≠ 0) :
      Fed rx byte { rx.push byte with expected := (rx.push byte).len.toUInt32, state := .data }
  | empty (hstate : rx.state = .header) (hlast : (rx.push byte).expected = 0)
      (hempty : (rx.push byte).len = 0) :
      Fed rx byte { rx.push byte with expected := UInt32.ofNat frameCrcSize, state := .crc }
  | data (hstate : rx.state = .data) (hlast : (rx.push byte).expected = 0) :
      Fed rx byte { rx.push byte with expected := UInt32.ofNat frameCrcSize, state := .crc }

theorem Receiver.fed (rx : Receiver) (byte : UInt8) : rx.Fed byte (rx.feed byte).1 := by
  have hbusy {state : RxState} (hstate : rx.state = state) (h₀ : state ≠ .magic0)
      (h₁ : state ≠ .magic1) : ¬ rx.Hunting := by
    rintro (h | h)
    · exact h₀ (hstate.symm.trans h)
    · exact h₁ (hstate.symm.trans h)
  unfold Receiver.feed
  cases hstate : rx.state with
  | magic0 =>
      dsimp only
      split
      · exact .hunting (Or.inr rfl)
      · exact .hunting (Or.inl hstate)
  | magic1 =>
      dsimp only
      split
      · exact .found (Or.inr hstate) _
      · split
        · exact .hunting (Or.inr rfl)
        · exact .hunting (Or.inl rfl)
  | header =>
      dsimp only
      split
      next hlast =>
        split
        · exact .hunting (Or.inl rfl)
        next hlong =>
          rw [UInt32.not_lt, UInt32.le_iff_toNat_le, UInt16.toNat_toUInt32] at hlong
          split
          next hempty => exact .empty hstate hlast hempty
          next hpayload => exact .header hstate hlast hlong hpayload
      next hmore => exact .more (hbusy hstate (by decide) (by decide)) hmore
  | data =>
      dsimp only
      split
      next hlast => exact .data hstate hlast
      next hmore => exact .more (hbusy hstate (by decide) (by decide)) hmore
  | crc =>
      dsimp only
      split
      · exact .hunting (Or.inl rfl)
      next hmore => exact .more (hbusy hstate (by decide) (by decide)) hmore

theorem Receiver.Fed.framed {byte : UInt8} {rx' : Receiver} (hfed : rx.Fed byte rx')
    (h : rx.Framed) : rx'.Framed := by
  cases hfed with
  | hunting hnext => exact hnext.framed
  | found _ frame => exact (framed_header rfl).mpr ⟨Nat.le_refl 2, Nat.le_add_left 1 4, rfl⟩
  | more hbusy hmore =>
      cases hstate : rx.state with
      | magic0 => exact absurd (Or.inl hstate) hbusy
      | magic1 => exact absurd (Or.inr hstate) hbusy
      | header =>
          have hpushed : (rx.push byte).state = .header := hstate
          exact (framed_header hpushed).mpr
            (((framed_header hstate).mp h).push (by decide) hmore)
      | data =>
          have hpushed : (rx.push byte).state = .data := hstate
          obtain ⟨hlen, hwithin⟩ := (framed_data hstate).mp h
          rw [framed_data hpushed, hwithin.len_push]
          exact ⟨hlen, hwithin.push (by omega) hmore⟩
      | crc =>
          have hpushed : (rx.push byte).state = .crc := hstate
          obtain ⟨hlen, hwithin⟩ := (framed_crc hstate).mp h
          rw [framed_crc hpushed, hwithin.len_push]
          exact ⟨hlen, hwithin.push (by omega) hmore⟩
  | header hstate hlast hlen hpayload =>
      have hwithin := (framed_header hstate).mp h
      exact framed_enter_data hlen hpayload (hwithin.push_last (by decide) hlast)
  | empty hstate hlast hempty =>
      have hwithin := (framed_header hstate).mp h
      have hindex := hwithin.push_last (by decide) hlast
      exact framed_enter_crc (by rw [hempty]; decide) (by rw [hempty]; exact hindex)
  | data hstate hlast =>
      obtain ⟨hlen, hwithin⟩ := (framed_data hstate).mp h
      have hindex := hwithin.push_last (by omega) hlast
      apply framed_enter_crc
      · rw [hwithin.len_push]
        exact hlen
      · rw [hwithin.len_push]
        exact hindex

/-- What a byte keeps. -/
theorem Receiver.Framed.feed (h : rx.Framed) (byte : UInt8) : (rx.feed byte).1.Framed :=
  (rx.fed byte).framed h

/-- Before the last position, both accesses of a push are sound. -/
theorem Receiver.Within.push_writes {first last : Nat} (h : rx.Within first last)
    (hlast : last ≤ 1035) (byte : UInt8) : (RxBuffer.push rx byte).Writes RxAccess.Sound := by
  have hmore := h.more
  have hsum := h.sum
  have hindex : RxAccess.Sound (.store rx.index.toNat byte) := by
    change rx.index.toNat < 1035
    omega
  refine (storeNext_returns rx byte).writes_bind ?_ ?_
  · exact .bind (.bind (.write hindex) fun _ => .pure _) fun _ => .pure _
  · exact .bind (.write hmore) fun _ => .pure _

/-- What a byte accesses. -/
theorem Receiver.Framed.writes (h : rx.Framed) (byte : UInt8) :
    (RxBuffer.feed rx byte).Writes RxAccess.Sound := by
  have hmagic (index : Nat) (hindex : index < 1035) :
      (storeAt rx index byte).Writes RxAccess.Sound :=
    .bind (.write hindex) fun _ => .pure _
  unfold RxBuffer.feed
  cases hstate : rx.state with
  | magic0 =>
      apply Bus.Writes.ite
      · exact fun _ => .bind (hmagic 0 (by decide)) fun _ => .pure _
      · exact fun _ => .pure _
  | magic1 =>
      apply Bus.Writes.ite
      · exact fun _ => .bind (hmagic 1 (by decide)) fun _ => .pure _
      · intro _
        apply Bus.Writes.ite
        · exact fun _ => .bind (hmagic 0 (by decide)) fun _ => .pure _
        · exact fun _ => .pure _
  | header =>
      have hwithin := (framed_header hstate).mp h
      apply Bus.Writes.bind (hwithin.push_writes (by decide) byte)
      intro rx'
      refine .ite (fun _ => .ite (fun _ => .pure _) fun _ => ?_) fun _ => .pure _
      exact .ite (fun _ => .pure _) fun _ => .pure _
  | data =>
      obtain ⟨hlen, hwithin⟩ := (framed_data hstate).mp h
      apply Bus.Writes.bind (hwithin.push_writes (by omega) byte)
      exact fun rx' => .ite (fun _ => .pure _) fun _ => .pure _
  | crc =>
      obtain ⟨hlen, hwithin⟩ := (framed_crc hstate).mp h
      apply Bus.Writes.bind (hwithin.push_writes (by omega) byte)
      exact fun rx' => .ite (fun _ => .pure _) fun _ => .pure _

/-- At most so many bytes are left before the receiver looks for a frame again. -/
def Receiver.outstanding (rx : Receiver) : Nat :=
  match rx.state with
  | .magic0 | .magic1 => 0
  | .header => rx.expected.toNat + 1024 + 4
  | .data => rx.expected.toNat + 4
  | .crc => rx.expected.toNat

theorem Receiver.Hunting.outstanding (h : rx.Hunting) : rx.outstanding = 0 := by
  unfold Receiver.outstanding
  rcases h with h | h <;> rw [h]

theorem Receiver.outstanding_header (h : rx.state = .header) :
    rx.outstanding = rx.expected.toNat + 1028 := by
  simp only [Receiver.outstanding, h]

theorem Receiver.outstanding_data (h : rx.state = .data) :
    rx.outstanding = rx.expected.toNat + 4 := by
  simp only [Receiver.outstanding, h]

theorem Receiver.outstanding_crc (h : rx.state = .crc) :
    rx.outstanding = rx.expected.toNat := by
  simp only [Receiver.outstanding, h]

theorem Receiver.outstanding_eq_zero (h : rx.Framed) (hzero : rx.outstanding = 0) :
    rx.Hunting := by
  cases hstate : rx.state with
  | magic0 => exact Or.inl hstate
  | magic1 => exact Or.inr hstate
  | header =>
      rw [outstanding_header hstate] at hzero
      cases hzero
  | data =>
      rw [outstanding_data hstate] at hzero
      cases hzero
  | crc =>
      rw [outstanding_crc hstate] at hzero
      have hmore := ((framed_crc hstate).mp h).2.more
      omega

/-- A frame has 1033 bytes behind its magic, and no more. -/
theorem Receiver.outstanding_le (h : rx.Framed) : rx.outstanding ≤ 1033 := by
  cases hstate : rx.state with
  | magic0 =>
      rw [Hunting.outstanding (Or.inl hstate)]
      exact Nat.zero_le 1033
  | magic1 =>
      rw [Hunting.outstanding (Or.inr hstate)]
      exact Nat.zero_le 1033
  | header =>
      obtain ⟨hstart, -, hsum⟩ := (framed_header hstate).mp h
      rw [outstanding_header hstate]
      omega
  | data =>
      obtain ⟨hlen, hstart, -, hsum⟩ := (framed_data hstate).mp h
      rw [outstanding_data hstate]
      omega
  | crc =>
      obtain ⟨hlen, hstart, -, hsum⟩ := (framed_crc hstate).mp h
      rw [outstanding_crc hstate]
      omega

/-- Inside a frame, every byte is one byte less to come. -/
theorem Receiver.Fed.outstanding_lt {byte : UInt8} {rx' : Receiver} (hfed : rx.Fed byte rx')
    (h : rx.Framed) (hbusy : ¬ rx.Hunting) : rx'.outstanding < rx.outstanding := by
  cases hfed with
  | hunting hnext =>
      rw [hnext.outstanding]
      exact Nat.pos_of_ne_zero fun hzero => hbusy (outstanding_eq_zero h hzero)
  | found hhunting _ => exact absurd hhunting hbusy
  | more _ hmore =>
      cases hstate : rx.state with
      | magic0 => exact absurd (Or.inl hstate) hbusy
      | magic1 => exact absurd (Or.inr hstate) hbusy
      | header =>
          have hpushed : (rx.push byte).state = .header := hstate
          have hexpected := ((framed_header hstate).mp h).expected_push byte
          rw [outstanding_header hstate, outstanding_header hpushed]
          omega
      | data =>
          have hpushed : (rx.push byte).state = .data := hstate
          have hexpected := ((framed_data hstate).mp h).2.expected_push byte
          rw [outstanding_data hstate, outstanding_data hpushed]
          omega
      | crc =>
          have hpushed : (rx.push byte).state = .crc := hstate
          have hexpected := ((framed_crc hstate).mp h).2.expected_push byte
          rw [outstanding_crc hstate, outstanding_crc hpushed]
          omega
  | header hstate _ hlen _ =>
      have hmore := ((framed_header hstate).mp h).more
      rw [outstanding_header hstate, outstanding_data rfl, UInt16.toNat_toUInt32]
      omega
  | empty hstate _ _ =>
      rw [outstanding_header hstate, outstanding_crc rfl]
      exact Nat.lt_of_lt_of_le (by decide : 4 < 1028) (Nat.le_add_left _ _)
  | data hstate _ =>
      have hmore := ((framed_data hstate).mp h).2.more
      rw [outstanding_data hstate, outstanding_crc rfl]
      exact Nat.lt_add_of_pos_left hmore

end Step

/-! ## A stream of bytes -/

section Stream

variable {rx : Receiver}

theorem Receiver.feedAll_eq_run (rx : Receiver) (bytes : List UInt8) :
    rx.feedAll bytes = Transition.run (fun rx byte => (rx.feed byte).1) rx bytes := by
  induction bytes generalizing rx with
  | nil => rfl
  | cons byte bytes ih => exact ih (rx.feed byte).1

theorem Receiver.Framed.feedAll (h : rx.Framed) (bytes : List UInt8) :
    (rx.feedAll bytes).Framed := by
  induction bytes generalizing rx with
  | nil => exact h
  | cons byte bytes ih => exact ih (h.feed byte)

/-- What a stream accesses. -/
theorem Receiver.Framed.writes_all (h : rx.Framed) (bytes : List UInt8) :
    (RxBuffer.feedAll rx bytes).Writes RxAccess.Sound := by
  induction bytes generalizing rx with
  | nil => exact .pure rx
  | cons byte bytes ih =>
      have hfirst := (feed_returns rx byte).map Prod.fst
      exact hfirst.writes_bind (h.writes byte).map (ih (h.feed byte))

/-- Any 1033 bytes contain the end of the frame. -/
theorem Receiver.Framed.recovers (h : rx.Framed) {bytes : List UInt8}
    (hlong : bytes.length = 1033) : ∃ n ≤ 1033, (rx.feedAll (bytes.take n)).Hunting := by
  have hmost := outstanding_le h
  obtain ⟨n, hn, hreached⟩ := Transition.exists_run_of_measure
    (fun rx byte => (Receiver.feed rx byte).1) Receiver.Framed Receiver.Hunting
    Receiver.outstanding (fun _ byte h => h.feed byte) (fun _ => outstanding_eq_zero)
    (fun rx byte h hbusy => (rx.fed byte).outstanding_lt h hbusy) h
    (hlong.symm ▸ hmost)
  rw [← feedAll_eq_run] at hreached
  exact ⟨n, Nat.le_trans hn hmost, hreached⟩

end Stream

/-- From the reset receiver, over every stream of bytes: no access leaves the
buffer or counts below zero, index and count add up to the length of the frame,
and any 1033 bytes more lead to a moment at which the receiver looks for a frame. -/
theorem assembler_in_bounds (rx : Receiver) (bytes : List UInt8) :
    let reached := rx.reset.feedAll bytes
    (RxBuffer.feedAll rx.reset bytes).Returns reached ∧
      (RxBuffer.feedAll rx.reset bytes).Writes RxAccess.Sound ∧
      (reached.state = .header → reached.index.toNat + reached.expected.toNat = 7) ∧
      (reached.state = .data → reached.len.toNat ≤ 1024 ∧
        reached.index.toNat + reached.expected.toNat = 7 + reached.len.toNat) ∧
      (reached.state = .crc → reached.len.toNat ≤ 1024 ∧
        reached.index.toNat + reached.expected.toNat = 11 + reached.len.toNat) ∧
      ∀ more : List UInt8, more.length = 1033 →
        ∃ n ≤ 1033, (reached.feedAll (more.take n)).Hunting := by
  have hreset : rx.reset.Framed := Receiver.Hunting.framed (Or.inl rfl)
  have hreached := hreset.feedAll bytes
  refine ⟨feedAll_returns _ _, hreset.writes_all bytes, ?_, ?_, ?_,
    fun more hlong => hreached.recovers hlong⟩
  · intro hstate
    exact ((Receiver.framed_header hstate).mp hreached).sum
  · intro hstate
    obtain ⟨hlen, hwithin⟩ := (Receiver.framed_data hstate).mp hreached
    exact ⟨hlen, hwithin.sum⟩
  · intro hstate
    obtain ⟨hlen, hwithin⟩ := (Receiver.framed_crc hstate).mp hreached
    exact ⟨hlen, hwithin.sum⟩

/-! ## The receiver of the board -/

section Sessions

theorem Protocol.feed_rx {p p' : Protocol} {byte : UInt8} {w w' : World Flash FlashCall}
    (h : (p.feed byte).run w = (.done p', w')) : p'.rx = (p.rx.feed byte).1 := by
  rw [Host.feed_eq_act] at h
  obtain ⟨q, -, rfl⟩ := Faulty.exists_of_run_map h
  rfl

/-- In update mode, the receiver is one that bytes lead to. -/
def Board.Receives (b : Board) : Prop :=
  ∀ u, b.mode = .update u → ∃ bytes, u.proto.rx = protocolInit.rx.feedAll bytes

/-- A power cut ends update mode. -/
theorem Board.receives_settle {α : Type} {after : α → Mode} {x : FlashM α}
    {w : World Flash FlashCall}
    (h : ∀ a w', x.run w = (.done a, w') → ∀ u, after a = .update u →
      ∃ bytes, u.proto.rx = protocolInit.rx.feedAll bytes) :
    (Board.settle after (x.run w)).Receives := by
  intro u hmode
  cases hrun : x.run w with
  | mk out w' =>
      rw [hrun] at hmode
      cases out with
      | done a => exact h a w' hrun u hmode
      | cut => cases hmode

/-- A poll ends with the receiver it has. -/
theorem Board.polled_update {u u' : Session} {nowMs : UInt32} {received : Bool}
    (h : Board.polled u nowMs received = .update u') : u'.proto.rx = u.proto.rx := by
  have htail := pollTail_rx u.proto nowMs received
  unfold Board.polled at h
  dsimp only at h
  split at h
  · cases h
    exact htail
  · cases h
  · split at h <;> cases h

theorem Board.Receives.step {b : Board} (h : b.Receives) (e : Event) : (b.step e).Receives := by
  cases e with
  | boot otaRequest start faults =>
      unfold Board.step
      dsimp only
      split
      · apply Board.receives_settle
        intro boot w' _ u hmode
        cases boot with
        | updateMode limitMs next =>
            cases hmode
            exact ⟨[], rfl⟩
        | jump slot => cases hmode
      · exact h
  | poll nowMs =>
      unfold Board.step
      dsimp only
      split
      next u hmode =>
        split
        · intro u' hmode'
          cases hmode'
          exact h u hmode
        · exact h
      · exact h
  | byte byte faults =>
      unfold Board.step
      dsimp only
      split
      next u hmode =>
        split
        · apply Board.receives_settle
          intro proto w' hrun u' hmode'
          cases hmode'
          obtain ⟨bytes, hbytes⟩ := h u hmode
          refine ⟨bytes ++ [byte], ?_⟩
          rw [Protocol.feed_rx hrun, hbytes, Receiver.feedAll, Receiver.feedAll,
            List.foldl_append]
          rfl
        · exact h
      · exact h
  | pollEnd =>
      unfold Board.step
      dsimp only
      split
      next u hmode =>
        split
        · intro u' hmode'
          rw [Board.polled_update hmode']
          exact h u hmode
        · exact h
      · exact h
  | confirm faults =>
      unfold Board.step
      dsimp only
      split
      · apply Board.receives_settle
        intro _ _ _ u hmode
        cases hmode
      · exact h
  | reset =>
      intro u hmode
      cases hmode

/-- Every receiver of a run is one that a stream of bytes leads to. -/
theorem Board.receiver_reached (flash : Flash) (events : List Event) :
    ((⟨flash, .reset⟩ : Board).run events).Receives := by
  apply Transition.invariant_run Board.step Board.Receives (fun _ e h _ => h.step e)
  · intro u hmode
    cases hmode
  · exact Transition.Guarded.of_forall (fun _ _ => trivial) _

/-- So the frame that a board assembles never leaves its buffer. -/
theorem Board.receiver_framed {flash : Flash} {events : List Event} {u : Session}
    (h : ((⟨flash, .reset⟩ : Board).run events).mode = .update u) : u.proto.rx.Framed := by
  obtain ⟨bytes, hbytes⟩ := Board.receiver_reached flash events u h
  rw [hbytes]
  exact Receiver.Framed.feedAll (Receiver.Hunting.framed (Or.inl rfl)) bytes

end Sessions

end OtaBoot
