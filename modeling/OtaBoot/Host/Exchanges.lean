import OtaBoot.Announcement

/-!
# The network during a transfer

What holds of the board and of the frames on their way to it while the tool sends an
image, whatever the channels do, before and after END_UPDATE is written.
-/

namespace OtaBoot.Host

open Storage Raising LittleEndian

/-- A relation between a board and the frames on their way to it that waiting keeps. -/
structure Kept (Inv : Link → List (List UInt8) → Prop) : Prop where
  keep : ∀ {l up} bytes, Inv l up → Inv (l.keep bytes) up
  idle : ∀ {l up} nowMs, Inv l up → Inv (l.poll ⟨nowMs, []⟩) up
  arrive : ∀ {l raw up} polls, Inv l (raw :: up) →
    Network.Accepts raw (l.hears raw polls).reports →
    (∀ seq, encode ⟨cmdEndUpdate, seq, []⟩ = .ok raw → counterAt l.flash < 2 ^ 32 - 1) →
    Inv (l.write (fun _ _ => polls) raw) up

namespace Network

/-- The relation holds, unless something was taken for something else or the write
counter was at its end. -/
def Holds (Inv : Link → List (List UInt8) → Prop) (net : Network) : Prop :=
  net.Genuine → net.Matched → net.HasRoom → Inv net.link net.up

section Waiting

variable {Inv : Link → List (List UInt8) → Prop} {net : Network}

/-- What no move touches. -/
theorem step_frame (net : Network) (move : Move) :
    (net.step move).written = net.written ∧ (net.step move).readings = net.readings ∧
      net.heard <+: (net.step move).heard := by
  unfold step
  split
  · exact ⟨rfl, rfl, List.prefix_rfl⟩
  · split
    · exact ⟨rfl, rfl, List.prefix_rfl⟩
    · exact ⟨rfl, rfl, List.prefix_append _ _⟩
  · split <;> exact ⟨rfl, rfl, List.prefix_rfl⟩

theorem steps_frame (net : Network) (moves : List Move) :
    (moves.foldl step net).written = net.written ∧ (moves.foldl step net).readings = net.readings ∧
      net.heard <+: (moves.foldl step net).heard := by
  induction moves generalizing net with
  | nil => exact ⟨rfl, rfl, List.prefix_rfl⟩
  | cons move moves ih =>
      obtain ⟨hwritten, hreadings, hheard⟩ := step_frame net move
      obtain ⟨hwritten', hreadings', hheard'⟩ := ih (net.step move)
      exact ⟨hwritten'.trans hwritten, hreadings'.trans hreadings, hheard.trans hheard'⟩

theorem step_kept (hkept : Kept Inv) (move : Move) (h : Inv net.link net.up)
    (hheard : ∀ entry ∈ (net.step move).heard, Accepts entry.written entry.reports)
    (hroom : (net.step move).HasRoom) :
    Inv (net.step move).link (net.step move).up := by
  cases move with
  | idle nowMs => exact hkept.idle nowMs h
  | arrive polls =>
      cases hup : net.up with
      | nil =>
          have hsame : net.step (.arrive polls) = net := by simp only [step, hup]
          rw [hsame]
          exact h
      | cons raw up =>
          rw [step_arrive net polls hup] at hheard hroom ⊢
          rw [hup] at h
          have hnew : net.link.hears raw polls ∈ net.heard ++ [net.link.hears raw polls] :=
            List.mem_append_right _ List.mem_cons_self
          exact hkept.keep _ (hkept.arrive polls h (hheard _ hnew) (hroom _ hnew))
  | reply bytes =>
      simp only [step]
      split
      · exact h
      · exact hkept.keep _ h

theorem steps_kept (hkept : Kept Inv) (moves : List Move) (h : Inv net.link net.up)
    (hheard : ∀ entry ∈ (moves.foldl step net).heard, Accepts entry.written entry.reports)
    (hroom : (moves.foldl step net).HasRoom) :
    Inv (moves.foldl step net).link (moves.foldl step net).up := by
  induction moves generalizing net with
  | nil => exact h
  | cons move moves ih =>
      have hmore := (steps_frame (net.step move) moves).2.2
      exact ih (step_kept hkept move h (fun entry hentry => hheard entry (hmore.subset hentry))
        fun entry hentry => hroom entry (hmore.subset hentry)) hheard hroom

/-- What a wait adds to the history. -/
theorem wait_history (net : Network) :
    net.wait.written = net.written ∧ net.heard <+: net.wait.heard ∧
      net.wait.readings =
        net.readings ++ [⟨net.written, net.wait.link.inbox, net.wait.link.sent⟩] := by
  obtain ⟨hwritten, hreadings, hheard⟩ :=
    steps_frame { net with moves := net.moves.tail } (net.moves.head?.getD [])
  refine ⟨hwritten, hheard, ?_⟩
  rw [wait, hreadings, hwritten]

theorem Genuine.of_wait (h : net.wait.Genuine) : net.Genuine := by
  obtain ⟨-, hheard, hreadings⟩ := wait_history net
  refine ⟨fun entry hentry => h.board entry (hheard.subset hentry), fun reading hreading => ?_⟩
  exact h.tool reading (hreadings ▸ List.mem_append_left _ hreading)

theorem Matched.of_wait (h : net.wait.Matched) : net.Matched := by
  intro reading hreading
  exact h reading ((wait_history net).2.2 ▸ List.mem_append_left _ hreading)

theorem HasRoom.of_wait (h : net.wait.HasRoom) : net.HasRoom :=
  fun entry hentry => h entry ((wait_history net).2.1.subset hentry)

/-- The tool waits. -/
theorem Holds.wait (hkept : Kept Inv) (h : net.Holds Inv) : net.wait.Holds Inv := by
  intro hgenuine hmatched hroom
  have hbefore : Inv net.link net.up := h hgenuine.of_wait hmatched.of_wait hroom.of_wait
  exact @steps_kept Inv { net with moves := net.moves.tail } hkept _ hbefore hgenuine.board hroom

theorem Holds.keep (hkept : Kept Inv) (h : net.Holds Inv) (bytes : List UInt8) :
    (net.keep bytes).Holds Inv :=
  fun hgenuine hmatched hroom =>
    hkept.keep bytes (h ⟨hgenuine.board, hgenuine.tool⟩ hmatched hroom)

variable {rep : Frame}

/-- A frame that the tool finds was sent by the board. -/
theorem Genuine.found (h : net.wait.Genuine)
    (hfound : firstFrame net.wait.link.inbox = some rep) : rep ∈ net.wait.link.sent := by
  refine h.tool ⟨net.written, net.wait.link.inbox, net.wait.link.sent⟩ ?_ rep hfound
  rw [(wait_history net).2.2]
  exact List.mem_append_right _ List.mem_cons_self

/-- It has the number of END_UPDATE, when the tool waits for the reply to that. -/
theorem Matched.found (h : net.wait.Matched) {seq : Nat}
    (hwritten : encode ⟨cmdEndUpdate, seq, []⟩ = .ok net.written)
    (hfound : firstFrame net.wait.link.inbox = some rep) (hother : rep.cmd ≠ rspNack) :
    rep.seq = seq := by
  refine h ⟨net.written, net.wait.link.inbox, net.wait.link.sent⟩ ?_ seq rep hwritten hfound hother
  rw [(wait_history net).2.2]
  exact List.mem_append_right _ List.mem_cons_self

end Waiting

end Network

/-! ### Before and after END_UPDATE is written -/

/-- The frame that announces an image. -/
def startFrame (payload : List UInt8) : List UInt8 := sendFrame OtaBoot.cmdStartUpdate 0 payload

/-- The frame that ends a transfer. -/
def endFrame (last : Nat) : List UInt8 := sendFrame OtaBoot.cmdEndUpdate (UInt16.ofNat last) []

/-- A frame with a block. -/
def BlockFrame (last : Nat) (raw : List UInt8) : Prop :=
  ∃ seq block, raw = sendFrame OtaBoot.cmdData seq block ∧ seq.toNat ≠ last ∧ block.length ≤ 1024

/-- END_UPDATE was not written. A block is under way only when the announced transfer
is, and so was an ACK sent. -/
structure Opened (payload : List UInt8) (last : Nat) (known : Prop) (l : Link)
    (up : List (List UInt8)) : Prop where
  pending : ∀ raw ∈ up, raw = startFrame payload ∨
    BlockFrame last raw ∧ Announced (StartRequest.ofBytes payload) l.proto.toTransfer
  sent : ∀ frame ∈ l.sent, frame.cmd ≠ rspNack →
    frame.seq ≠ last ∧ Announced (StartRequest.ofBytes payload) l.proto.toTransfer
  known : known → Announced (StartRequest.ofBytes payload) l.proto.toTransfer

/-- END_UPDATE is under way behind all others, or nothing is. -/
def Closing (payload : List UInt8) (last : Nat) (l : Link) (up : List (List UInt8)) : Prop :=
  (∃ front, up = front ++ [endFrame last] ∧ Opened payload last True l front) ∨
    up = [] ∧ ∀ frame ∈ l.sent, frame.cmd ≠ rspNack → frame.seq = last →
      OnTrial (StartRequest.ofBytes payload) l.proto.toTransfer l.flash

section Closing

variable {payload : List UInt8} {last : Nat} {known : Prop} {l : Link} {raw : List UInt8}
  {up : List (List UInt8)}

theorem Link.sent_write (channel : Channel) (l : Link) (raw : List UInt8) :
    (l.write channel raw).sent = l.sent ++ framesIn (l.write channel raw).proto.tx := by
  rw [sent, log_write, List.flatMap_append, List.flatMap_singleton]
  rfl

/-- From what a board with nothing to send is left with. -/
theorem Opened.of_gathering {up' : List (List UInt8)} {bound : Nat}
    (h : Opened payload last known l up') (hsub : up ⊆ up') (channel : Channel)
    (hgathering : Gathering (StartRequest.ofBytes payload) last
      (Announced (StartRequest.ofBytes payload) l.proto.toTransfer) bound
      (l.write channel raw).proto (l.write channel raw).flash) :
    Opened payload last known (l.write channel raw) up where
  pending raw' hmem := (h.pending raw' (hsub hmem)).imp_right (And.imp_right hgathering.known)
  sent frame hmem hother := by
    rw [Link.sent_write] at hmem
    rcases List.mem_append.mp hmem with hold | hnew
    · exact (h.sent frame hold hother).imp_right hgathering.known
    · exact hgathering.replies.all_good frame hnew hother
  known hknown := hgathering.known (h.known hknown)

/-- A board that is given nothing but the time. -/
theorem Link.poll_nothing (l : Link) (nowMs : UInt32) :
    l.poll ⟨nowMs, []⟩ = { l with proto := l.proto.pollTail nowMs false } := rfl

theorem Opened.kept (hlast : last ≠ 0) (hpayload : payload.length ≤ 1024) :
    Kept (Opened payload last known) where
  keep bytes h := ⟨h.pending, h.sent, h.known⟩
  idle {l up} nowMs h := by
    have hannounced (ha : Announced (StartRequest.ofBytes payload) l.proto.toTransfer) :=
      ha.pollTail nowMs false
    rw [Link.poll_nothing]
    exact ⟨fun raw hmem => (h.pending raw hmem).imp_right (And.imp_right hannounced),
      fun frame hmem hother => (h.sent frame hmem hother).imp_right hannounced,
      fun hknown => hannounced (h.known hknown)⟩
  arrive {l raw up} polls h hheard _ := by
    have hfresh := Gathering.fresh (StartRequest.ofBytes payload) last l.proto l.flash
    have hsub := List.subset_cons_self raw up
    rcases h.pending raw List.mem_cons_self with rfl | ⟨⟨seq, block, rfl, hseq, hshort⟩, hannounced⟩
    · rcases Link.write_phases Gathering.steady Gathering.steady (fun frame p hencode =>
        act_dispatched hencode hpayload p ▸ Gathering.dispatch_start hlast p) l polls
        hheard hfresh with hbefore | hafter
      · exact h.of_gathering hsub _ hbefore
      · exact h.of_gathering hsub _ hafter
    · rcases Link.write_phases Gathering.steady Gathering.steady (fun frame p hencode =>
        act_dispatched hencode hshort p ▸ Gathering.dispatch_data hseq hshort hannounced p) l polls
        hheard hfresh with hbefore | hafter
      · exact h.of_gathering hsub _ hbefore
      · exact h.of_gathering hsub _ hafter

theorem Closing.kept (hlast : last ≠ 0) (hpayload : payload.length ≤ 1024) :
    Kept (Closing payload last) where
  keep bytes h := by
    rcases h with ⟨front, hup, hopened⟩ | ⟨hup, hsent⟩
    · exact .inl ⟨front, hup, (Opened.kept hlast hpayload).keep bytes hopened⟩
    · exact .inr ⟨hup, hsent⟩
  idle {l up} nowMs h := by
    rcases h with ⟨front, hup, hopened⟩ | ⟨hup, hsent⟩
    · exact .inl ⟨front, hup, (Opened.kept hlast hpayload).idle nowMs hopened⟩
    · rw [Link.poll_nothing]
      exact .inr ⟨hup, fun frame hmem hother hnumber =>
        (hsent frame hmem hother hnumber).pollTail nowMs false⟩
  arrive {l raw up} polls h hheard hroom := by
    rcases h with ⟨front, hup, hopened⟩ | ⟨hup, -⟩
    · cases front with
      | cons raw' front =>
          obtain ⟨rfl, rfl⟩ := List.cons.inj hup
          exact .inl ⟨front, rfl, (Opened.kept hlast hpayload).arrive polls hopened hheard hroom⟩
      | nil =>
          obtain ⟨rfl, rfl⟩ := List.cons.inj hup
          have hfresh := Gathering.fresh (StartRequest.ofBytes payload) last l.proto l.flash
          have hcounter : counterAt l.flash < 2 ^ 32 - 1 :=
            hroom _ (encode_eq OtaBoot.cmdEndUpdate (UInt16.ofNat last) (by decide))
          refine .inr ⟨rfl, fun frame hmem hother hnumber => ?_⟩
          rcases Link.write_phases Gathering.steady Concluded.steady (fun frame p hencode =>
            act_dispatched hencode (by decide) p ▸
              Gathering.dispatch_end hcounter (hopened.known trivial) p) l polls hheard hfresh
            with hbefore | hafter
          · have hopened' : Opened payload last True _ [] :=
              hopened.of_gathering (List.Subset.refl []) _ hbefore
            exact absurd hnumber (hopened'.sent frame hmem hother).1
          · rw [Link.sent_write] at hmem
            rcases List.mem_append.mp hmem with hold | hnew
            · exact absurd hnumber (hopened.sent frame hold hother).1
            · exact Replies.all_good hafter frame hnew hother hnumber
    · cases hup

end Closing

/-! ## The tool -/

theorem Network.Holds.write {Inv Inv' : Link → List (List UInt8) → Prop} {net : Network}
    {raw : List UInt8} (h : net.Holds Inv)
    (hwrite : ∀ {l up}, Inv l up → Inv' l (up ++ [raw])) : (net.write raw).Holds Inv' :=
  fun hgenuine hmatched hroom => hwrite (h ⟨hgenuine.board, hgenuine.tool⟩ hmatched hroom)

section Tool

variable {payload : List UInt8} {last : Nat} {known : Prop} {l : Link} {up : List (List UInt8)}

/-- One more announcement. -/
theorem Opened.write_start (h : Opened payload last known l up) :
    Opened payload last known l (up ++ [startFrame payload]) where
  pending raw hmem := by
    rcases List.mem_append.mp hmem with hold | hnew
    · exact h.pending raw hold
    · exact .inl (List.mem_singleton.mp hnew)
  sent := h.sent
  known := h.known

/-- One more block. -/
theorem Opened.write_block (h : Opened payload last True l up) {seq : UInt16}
    {block : List UInt8} (hseq : seq.toNat ≠ last) (hshort : block.length ≤ 1024) :
    Opened payload last True l (up ++ [sendFrame OtaBoot.cmdData seq block]) where
  pending raw hmem := by
    rcases List.mem_append.mp hmem with hold | hnew
    · exact h.pending raw hold
    · exact .inr ⟨⟨seq, block, List.mem_singleton.mp hnew, hseq, hshort⟩, h.known trivial⟩
  sent := h.sent
  known := h.known

/-- The end of the transfer. -/
theorem Opened.write_end (h : Opened payload last True l up) :
    Closing payload last l (up ++ [endFrame last]) :=
  .inl ⟨up, rfl, h⟩

/-- When the announcement is accepted, the announced transfer is under way. -/
theorem ensures_start (hlast : last ≠ 0) (hpayload : payload.length ≤ 1024) :
    Ensures (fun net : Network => net.Holds (Opened payload last False))
      (Network.wire.exchange ⟨cmdStartUpdate, 0, payload⟩ 3)
      (fun rep net => rep.cmd ≠ rspNack → net.Holds (Opened payload last True))
      fun _ _ => True := by
  have hkept {known : Prop} : Kept (Opened payload last known) := Opened.kept hlast hpayload
  refine (Wire.ensures_exchange Network.wire ⟨cmdStartUpdate, 0, payload⟩
    (fun _ net => net.Holds (Opened payload last False))
    (fun _ net => net.Holds (Opened payload last False)) _ 3 ?_ ?_ ?_ ?_ ?_).conseq
    (fun _ h => h) (fun _ _ h => h) fun _ _ _ => trivial
  · intro _ raw net hencode h
    obtain ⟨rfl, -⟩ := encode_eq_sendFrame OtaBoot.cmdStartUpdate hencode
    exact h.write Opened.write_start
  · intro _ net rep bytes h hfound hother
    refine Network.Holds.keep hkept (fun hgenuine hmatched hroom => ?_) bytes
    have hopened := h.wait hkept hgenuine hmatched hroom
    have hsent := hopened.sent rep (hgenuine.found hfound) hother
    exact ⟨hopened.pending, hopened.sent, fun _ => hsent.2⟩
  · exact fun _ net bytes h => (h.wait hkept).keep hkept bytes
  · exact fun _ net h => h
  · exact fun _ net h => h.keep hkept []

/-- Whatever the reply to a block is. -/
theorem ensures_block (hlast : last ≠ 0) (hpayload : payload.length ≤ 1024) {seq : Nat}
    (hseq : seq ≠ last) (block : List UInt8) :
    Ensures (fun net : Network => net.Holds (Opened payload last True))
      (Network.wire.exchange ⟨cmdData, seq, block⟩ 3)
      (fun _ net => net.Holds (Opened payload last True)) fun _ _ => True := by
  have hkept : Kept (Opened payload last True) := Opened.kept hlast hpayload
  refine (Wire.ensures_exchange Network.wire ⟨cmdData, seq, block⟩
    (fun _ net => net.Holds (Opened payload last True))
    (fun _ net => net.Holds (Opened payload last True)) _ 3 ?_ ?_ ?_ ?_ ?_).conseq
    (fun _ h => h) (fun _ _ h => h) fun _ _ _ => trivial
  · intro _ raw net hencode h
    obtain ⟨rfl, htoNat, hshort⟩ := encode_eq_sendFrame OtaBoot.cmdData hencode
    exact h.write fun hopened => hopened.write_block (by rwa [htoNat]) hshort
  · exact fun _ net rep bytes h _ => (h.wait hkept).keep hkept bytes
  · exact fun _ net bytes h => (h.wait hkept).keep hkept bytes
  · exact fun _ net h => h
  · exact fun _ net h => h.keep hkept []

/-- The loop over the blocks. -/
theorem ensures_sendBlocks (hlast : last ≠ 0) (hpayload : payload.length ≤ 1024) {seq : Nat}
    (blocks : List (List UInt8)) (hcount : seq + blocks.length = last) :
    Ensures (fun net : Network => net.Holds (Opened payload last True))
      (Network.wire.sendBlocks seq blocks)
      (fun next? net => ∀ next, next? = some next →
        next = last ∧ net.Holds (Opened payload last True)) fun _ _ => True := by
  induction blocks generalizing seq with
  | nil =>
      refine .pure fun net h next hnext => ?_
      cases hnext
      exact ⟨hcount, h⟩
  | cons block blocks ih =>
      rw [List.length_cons] at hcount
      have hblock : Ensures (fun net : Network => net.Holds (Opened payload last True))
          (Network.wire.exchange ⟨cmdData, seq, block⟩ 3) _ fun _ _ => True :=
        ensures_block hlast hpayload (by omega) block
      rw [Wire.sendBlocks]
      refine .bind (show Ensures _ _ (fun (rep? : Option Frame) (net : Network) => rep? ≠ none →
        net.Holds (Opened payload last True)) _ from
        .tryCatch (hblock.bind fun rep => .pure fun net h _ => h) fun e => ?_) fun rep? => ?_
      · refine .ite (fun _ => .throw fun _ _ => trivial) fun _ => ?_
        exact .ite (fun _ => .pure fun _ _ hsome => absurd rfl hsome)
          fun _ => .throw fun _ _ => trivial
      cases rep? with
      | none =>
          refine .pure fun _ _ next hnext => ?_
          cases hnext
      | some rep =>
          refine .ite (fun _ => .pure fun _ _ next hnext => ?_) fun _ => ?_
          · cases hnext
          · exact (ih (by omega)).conseq (fun _ h => h (Option.some_ne_none rep)) (fun _ _ h => h)
              fun _ _ h => h

/-- An ACK that is taken for the one to END_UPDATE is that one. -/
theorem ensures_end (hlast : last ≠ 0) (hpayload : payload.length ≤ 1024) :
    Ensures (fun net : Network => net.Holds (Opened payload last True))
      (tryCatch (Network.wire.exchange ⟨cmdEndUpdate, last, []⟩ 1) fun e =>
        if e = .timeout then Network.wire.receive else throw e)
      (fun rep net => rep.cmd ≠ rspNack → net.Genuine → net.Matched → net.HasRoom →
        OnTrial (StartRequest.ofBytes payload) net.link.proto.toTransfer net.link.flash)
      fun _ _ => True := by
  have hkept : Kept (Closing payload last) := Closing.kept hlast hpayload
  have hexchange := Wire.ensures_exchange Network.wire ⟨cmdEndUpdate, last, []⟩
    (fun attempts net => attempts = 0 ∨
      attempts = 1 ∧ net.Holds (Opened payload last True))
    (fun attempts net => attempts = 0 ∧ net.Holds (Closing payload last) ∧
      encode ⟨cmdEndUpdate, last, []⟩ = .ok net.written)
    (fun rep net => rep.cmd ≠ rspNack → net.Genuine → net.Matched → net.HasRoom →
      OnTrial (StartRequest.ofBytes payload) net.link.proto.toTransfer net.link.flash)
    1 ?_ ?_ ?_ ?_ ?_
  · refine .tryCatch (hexchange.conseq (fun _ h => .inr ⟨rfl, h⟩) (fun _ _ h => h)
      fun _ _ h => h) fun e => .ite (fun htimeout => ?_) fun _ => .throw fun _ _ => trivial
    -- `Timeout` does not get here
    exact fun net h => (h.1 htimeout).elim
  · intro attempts raw net hencode h
    obtain ⟨hone, h⟩ := h.resolve_left (Nat.succ_ne_zero attempts)
    obtain ⟨rfl, -⟩ := encode_eq_sendFrame OtaBoot.cmdEndUpdate hencode
    exact ⟨Nat.succ.inj hone, h.write Opened.write_end, hencode⟩
  · rintro attempts net rep bytes ⟨-, h, hwritten⟩ hfound hother hgenuine hmatched hroom
    have hgenuine : net.wait.Genuine := ⟨hgenuine.board, hgenuine.tool⟩
    have hsent := hgenuine.found hfound
    have hnumber := Network.Matched.found hmatched hwritten hfound hother
    rcases h.wait hkept hgenuine hmatched hroom with ⟨front, -, hopened⟩ | ⟨-, hconcluded⟩
    · exact absurd hnumber (hopened.sent rep hsent hother).1
    · exact hconcluded rep hsent hother hnumber
  · exact fun attempts net bytes h => .inl h.1
  · rintro attempts net (hnone | ⟨hone, -⟩)
    · exact absurd hnone (Nat.succ_ne_zero attempts)
    · exact .inl (Nat.succ.inj hone)
  · exact fun attempts net h => h.imp_right fun hone =>
      ⟨hone.1, hone.2.keep (Opened.kept hlast hpayload) []⟩

/-- What a transfer that succeeds has ensured. -/
theorem ensures_sendFirmware (firmware : List UInt8) (slot version : Nat) :
    Ensures (fun net : Network => ∀ payload last, net.Holds (Opened payload last False))
      (Network.wire.sendFirmware firmware slot version)
      (fun result net => result = true → net.Genuine → net.Matched → net.HasRoom →
        ∃ r : StartRequest, r.size.toNat = firmware.length ∧ r.crc.toNat = crc32Stm32 firmware ∧
        r.ver.toNat = version ∧ r.slot.toNat = slot ∧
        OnTrial r net.link.proto.toTransfer net.link.flash) fun _ _ => True := by
  have hlast : 1 + (splitFirmware firmware).length ≠ 0 := by omega
  unfold Wire.sendFirmware
  refine .bind (show Ensures _ _ (fun payload (net : Network) =>
    StartUpdate.pack ⟨firmware.length, crc32Stm32 firmware, version, slot⟩ = .ok payload ∧
      net.Holds (Opened payload (1 + (splitFirmware firmware).length) False)) _ from
    .ofExcept (fun payload hpack net h => ⟨hpack, h payload _⟩) fun _ _ _ _ => trivial)
    fun payload => .of_fact fun hpack => ?_
  obtain ⟨hlength, hsize, hcrc, hver, hslot⟩ := fields_of_pack hpack
  have hpayload : payload.length ≤ 1024 := by omega
  refine (ensures_start hlast hpayload).bind fun rep => ?_
  refine .ite (fun _ => .pure fun _ _ hfalse => by cases hfalse) fun hother => ?_
  refine .bind ((ensures_sendBlocks hlast hpayload (splitFirmware firmware) rfl).conseq
    (fun _ h => h hother) (fun _ _ h => h) fun _ _ h => h) fun next? => ?_
  cases next? with
  | none => exact .pure fun _ _ hfalse => by cases hfalse
  | some next =>
      refine Ensures.conseq (.of_fact fun hnext => ?_) (fun _ h => h next rfl) (fun _ _ h => h)
        fun _ _ h => h
      subst hnext
      refine (ensures_end hlast hpayload).bind fun rep => ?_
      refine .ite (fun _ => .pure fun _ _ hfalse => by cases hfalse) fun hother => ?_
      exact .pure fun net h _ hgenuine hmatched hroom =>
        ⟨_, hsize, hcrc, hver, hslot, h hother hgenuine hmatched hroom⟩

end Tool

end OtaBoot.Host
