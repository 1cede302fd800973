import OtaBoot.Host.Deadlines
import OtaBoot.Host.Network
import OtaBoot.Properties.Faults

/-!
# A reply that comes late

The tool sends `CMD_END_UPDATE` once, and means to wait longer where no reply
comes in time. But what `exchange` raises after its last attempt is not the
`Timeout` that is waited for, so a late reply is never read. The tool gives the
result that it calls for only where something else does in its place.
-/

namespace OtaBoot.Host

open Raising LittleEndian

/-! ## More than a frame -/

section Readable

variable {bytes rest : List UInt8}

theorem afterPair_append (h : afterPair bytes = some rest) (more : List UInt8) :
    afterPair (bytes ++ more) = some (rest ++ more) := by
  induction bytes using afterPair.induct with
  | case1 a b rest' hmagic =>
      rw [afterPair, if_pos hmagic] at h
      cases h
      exact if_pos hmagic
  | case2 a b rest' hother ih =>
      rw [afterPair, if_neg hother] at h
      exact (if_neg hother).trans (ih h)
  | case3 bytes hshort =>
      rw [afterPair] at h
      · cases h
      · exact hshort

/-- What comes behind a frame does not change it. -/
theorem firstFrame_append (h : readable bytes) (more : List UInt8) :
    firstFrame (bytes ++ more) = firstFrame bytes := by
  unfold readable at h
  cases hfound : afterMagic [] bytes with
  | none =>
      rw [hfound] at h
      cases h
  | some rest =>
      rw [hfound] at h
      obtain ⟨hheader, hsize⟩ := of_decide_eq_true h
      have hpair := (afterMagic_eq _).symm.trans hfound
      obtain ⟨cmd, seq, len, hfields⟩ := exists_header (rest.take 5)
        (by rw [List.length_take]; exact Nat.min_eq_left hheader)
      obtain ⟨tail, rfl⟩ : ∃ tail, rest = Receiver.headerBytes cmd seq len ++ tail :=
        ⟨rest.drop 5, by rw [← hfields, List.take_append_drop]⟩
      have hfield : unpackField ((Receiver.headerBytes cmd seq len ++ tail).extract 1 3) =
          len.toNat := unpackField_bytes16 len
      rw [hfield, List.length_append, Receiver.length_headerBytes] at hsize
      have hpair' := afterPair_append hpair more
      rw [List.append_assoc] at hpair'
      by_cases hlong : len.toNat > maxPayloadSize
      · rw [firstFrame, firstFrame, (parse_header hpair).trans (if_pos hlong),
          (parse_header hpair').trans (if_pos hlong)]
        rfl
      have hcomplete : len.toNat + 4 ≤ tail.length := by
        have hbytes : 5 + len.toNat + 4 ≤ 5 + tail.length := hsize.resolve_left hlong
        omega
      obtain ⟨data, crc, more', rfl, hlen⟩ := exists_body hcomplete
      have hshort : data.length ≤ 1024 := hlen ▸ Nat.le_of_not_lt hlong
      rw [List.append_assoc] at hpair'
      rw [firstFrame, firstFrame, parse_body hlen hshort hpair, parse_body hlen hshort hpair',
        decode_body cmd seq hlen hshort crc]
      by_cases hcrc : crc32Compute (Receiver.headerBytes cmd seq len ++ data) = crc
      · rw [if_pos hcrc]
        rfl
      · rw [if_neg hcrc]
        rfl

end Readable

/-! ## By the clock -/

namespace Clock

variable {s : Clock}

/-- A wait finds what begins all that can be read in its time. -/
theorem firstFrame_wait (ms : Nat) (s : Clock) :
    firstFrame (s.wait ms).inbox = firstFrame (s.due ms) := by
  have hwait (deadline : Nat) (coming : List Arrival) (s : Clock) :
      firstFrame (s.waitUntil deadline coming).inbox =
        firstFrame (s.inbox ++ (coming.takeWhile (·.1 ≤ deadline)).flatMap Prod.snd) := by
    induction coming generalizing s with
    | nil =>
        rw [waitUntil]
        exact congrArg firstFrame (List.append_nil _).symm
    | cons arrival coming ih =>
        by_cases hreadable : readable s.inbox
        · rw [waitUntil, if_pos hreadable, firstFrame_append hreadable]
        · rw [waitUntil, if_neg hreadable, List.takeWhile_cons]
          by_cases htime : arrival.1 ≤ deadline
          · rw [if_pos htime, if_pos (decide_eq_true htime), ih, List.flatMap_cons,
              List.append_assoc]
          · rw [if_neg htime, if_neg (decide_eq_true_iff.not.mpr htime)]
            exact congrArg firstFrame (List.append_nil _).symm
  exact hwait _ _ s

/-- An answer that comes later adds nothing. -/
theorem due_write {ms : Nat} {arrivals : List Arrival} (raw : List UInt8)
    (hanswers : s.answers.head? = some arrivals)
    (hlate : ∀ arrival ∈ arrivals, ms < arrival.1) :
    (s.write raw).due ms = s.due ms := by
  have hnone : (arrivals.map fun arrival => (s.nowMs + arrival.1, arrival.2)).takeWhile
      (fun arrival : Arrival => arrival.1 ≤ s.nowMs + ms) = [] := by
    cases arrivals with
    | nil => rfl
    | cons arrival arrivals =>
        have hfirst := hlate arrival List.mem_cons_self
        refine List.takeWhile_cons_of_neg (decide_eq_true_iff.not.mpr ?_)
        exact Nat.not_le.mpr (Nat.add_lt_add_left hfirst s.nowMs)
  unfold due write
  simp only [hanswers, Option.getD_some]
  rw [List.takeWhile_append, hnone, List.append_nil]
  split
  next hall => rw [(List.takeWhile_prefix _).eq_of_length hall]
  next => rfl

end Clock

/-- All blocks were acknowledged, and the tool is about to send `CMD_END_UPDATE`, which
the reply will answer: after the ordinary timeout, and within ten seconds from then. -/
structure LateReply (timeoutMs : Nat) (firmware : List UInt8) (slot version : Nat)
    (before : Clock) (reply : Frame) (s' : Clock) : Prop where
  acknowledged : ∃ su rep s seq,
    StartUpdate.pack ⟨firmware.length, crc32Stm32 firmware, version, slot⟩ = .ok su ∧
    Returns ((Clock.link timeoutMs).exchange ⟨cmdStartUpdate, 0, su⟩ 3) before rep s ∧
    rep.cmd ≠ rspNack ∧
    Returns ((Clock.link timeoutMs).sendBlocks 1 (splitFirmware firmware)) s (some seq) s' ∧
    ∃ raw, encode ⟨cmdEndUpdate, seq, []⟩ = .ok raw
  late : ∃ arrivals, s'.answers.head? = some arrivals ∧
    encode reply = .ok (arrivals.flatMap Prod.snd) ∧
    (∀ arrival ∈ arrivals, timeoutMs < arrival.1 ∧ arrival.1 ≤ timeoutMs + 10000) ∧
    ∀ arrival ∈ s'.coming, arrival.1 ≤ s'.nowMs + (timeoutMs + 10000)

section Late

/-- One attempt finds a frame, or it raises something else than `Timeout`. -/
theorem exchange_once {σ : Type} (wire : Wire σ) (s : σ) {frame : Frame} {raw : List UInt8}
    (hencode : encode frame = .ok raw) :
    match firstFrame (wire.inbox (wire.wait (wire.write raw s))) with
    | some rep => ∃ s', Returns (wire.exchange frame 1) s rep s'
    | none => ∃ e s', Raises (wire.exchange frame 1) s e s' ∧ e ≠ .timeout := by
  have hsend : Returns (wire.send frame) s ⟨⟩ (wire.write raw s) :=
    .bind (.ofExcept hencode s) (.bind (.get s) (.set s _))
  obtain ⟨bytes, houtcome⟩ := Wire.receive_outcome wire (wire.write raw s)
  cases hrun : StateT.run wire.receive.run (wire.write raw s) with
  | mk result s' =>
      rw [hrun] at houtcome
      cases result with
      | ok rep =>
          rw [houtcome.2]
          exact ⟨s', .tryCatch (.bind hsend hrun)⟩
      | error e =>
          rw [houtcome.2]
          have hattempt : Raises (wire.send frame >>= fun _ => wire.receive) s e s' :=
            .bind hsend hrun
          by_cases hmends : e = .timeout ∨ e = .badCrc ∨ e = .badMagic
          · refine ⟨.transport, s', hattempt.tryCatch_raises ?_, HostError.noConfusion⟩
            rw [if_pos hmends, if_neg (Nat.lt_irrefl 0)]
            exact .throw _ _
          · refine ⟨e, s', hattempt.tryCatch_raises ?_, fun htimeout => hmends (.inl htimeout)⟩
            rw [if_neg hmends]
            exact .throw _ _

variable {timeoutMs slot version : Nat} {firmware : List UInt8} {before s' : Clock} {reply : Frame}

/-- What the tool makes of what comes in the ordinary time. -/
theorem LateReply.outcome (h : LateReply timeoutMs firmware slot version before reply s') :
    match firstFrame (s'.due timeoutMs) with
    | some rep => ∃ s, Returns ((Clock.link timeoutMs).sendFirmware firmware slot version) before
        (decide (rep.cmd ≠ rspNack)) s
    | none => ∃ e s,
        Raises ((Clock.link timeoutMs).sendFirmware firmware slot version) before e s := by
  obtain ⟨su, rep, s, seq, hpack, hstart, hack, hblocks, raw, hencode⟩ := h.acknowledged
  obtain ⟨arrivals, hanswers, -, hlate, -⟩ := h.late
  have hfinish := exchange_once ((Clock.link timeoutMs).within timeoutMs) s' hencode
  change match firstFrame (Clock.wait timeoutMs (s'.write raw)).inbox with
    | some rep => _
    | none => _ at hfinish
  rw [Clock.firstFrame_wait, Clock.due_write raw hanswers fun arrival harrival =>
    (hlate arrival harrival).1] at hfinish
  cases hfirst : firstFrame (s'.due timeoutMs) with
  | some rep' =>
      rw [hfirst] at hfinish
      obtain ⟨s'', hreturns⟩ := hfinish
      refine ⟨s'', .bind (.ofExcept hpack before) (.bind hstart ?_)⟩
      rw [if_neg hack]
      refine .bind hblocks (.bind (.tryCatch hreturns) ?_)
      by_cases hnack : rep'.cmd = rspNack
      · rw [if_pos hnack, decide_eq_false (not_not.mpr hnack)]
        exact .pure _ _
      · rw [if_neg hnack, decide_eq_true hnack]
        exact .pure _ _
  | none =>
      rw [hfirst] at hfinish
      obtain ⟨e, s'', hraises, hother⟩ := hfinish
      refine ⟨e, s'', .bind (.ofExcept hpack before) (.bind hstart ?_)⟩
      rw [if_neg hack]
      refine .bind hblocks (Raises.bind_first (hraises.tryCatch_raises ?_) _)
      -- the handler of `send_firmware` waits for a `Timeout`, and gets its superclass
      rw [if_neg hother]
      exact .throw _ _

end Late

/-! ## One and a half seconds -/

section Boards

variable {cmd : UInt8} {seq : UInt16} {data : List UInt8}

theorem not_readable_nil : ¬ readable [] := Bool.false_ne_true

theorem readable_sendFrame (hshort : data.length ≤ 1024) : readable (sendFrame cmd seq data) := by
  have hfield : unpackField ((body cmd seq data).extract 1 3) = data.length :=
    (unpackField_bytes16 _).trans (Receiver.toNat_length_field hshort)
  have hlength : (body cmd seq data).length = 5 + data.length + 4 := by
    rw [body, Receiver.covered, List.length_append, List.length_append, length_bytes32]
    rfl
  have hfound : afterMagic [] (sendFrame cmd seq data) = some (body cmd seq data) := by
    rw [sendFrame_eq_magic, afterMagic_magic]
  unfold readable
  rw [hfound]
  refine decide_eq_true ⟨?_, .inr ?_⟩
  · rw [hlength]
    exact (Nat.le_add_right 5 _).trans (Nat.le_add_right _ 4)
  · rw [hlength, hfield]
    exact Nat.le_refl _

variable {nowMs timeMs ms : Nat} {coming : List Arrival} {answers : List (List Arrival)}

/-- A frame that comes in time. -/
theorem Clock.returns_receive (timeoutMs : Nat) (hshort : data.length ≤ 1024)
    (htime : timeMs ≤ nowMs + ms) :
    Returns ((Clock.link timeoutMs).within ms).receive
      ⟨nowMs, [], (timeMs, sendFrame cmd seq data) :: coming, answers⟩
      ⟨cmd.toNat, seq.toNat, data⟩ ⟨max nowMs timeMs, [], coming, answers⟩ := by
  have hframe : readable (sendFrame cmd seq data) := readable_sendFrame hshort
  have hwait : Clock.wait ms ⟨nowMs, [], (timeMs, sendFrame cmd seq data) :: coming, answers⟩ =
      ⟨max nowMs timeMs, sendFrame cmd seq data, coming, answers⟩ := by
    simp only [wait, waitUntil]
    rw [if_neg not_readable_nil, if_pos htime, List.nil_append]
    cases coming with
    | nil => rw [waitUntil, if_pos hframe]
    | cons arrival coming => rw [waitUntil, if_pos hframe]
  have hreceive : Returns ((Clock.link timeoutMs).within ms).receive _ _
      (Clock.keep [] (Clock.wait ms _)) :=
    Wire.returns_receive hshort ((congrArg Clock.inbox hwait).trans (List.append_nil _).symm)
  rwa [hwait] at hreceive

/-- A frame that does not. -/
theorem Clock.raises_receive (timeoutMs : Nat) {bytes : List UInt8} (htime : nowMs + ms < timeMs) :
    Raises ((Clock.link timeoutMs).within ms).receive
      ⟨nowMs, [], (timeMs, bytes) :: coming, answers⟩ .timeout
      ⟨nowMs + ms, [], (timeMs, bytes) :: coming, answers⟩ := by
  have hwait : Clock.wait ms ⟨nowMs, [], (timeMs, bytes) :: coming, answers⟩ =
      ⟨nowMs + ms, [], (timeMs, bytes) :: coming, answers⟩ := by
    simp only [wait, waitUntil]
    rw [if_neg not_readable_nil, if_neg (Nat.not_le.mpr htime)]
  have hreceive : Raises ((Clock.link timeoutMs).within ms).receive _ _
      (Clock.keep [] (Clock.wait ms _)) :=
    Wire.raises_receive (congrArg (fun s : Clock => afterMagic [] s.inbox) hwait)
  rwa [hwait] at hreceive

variable {timeoutMs first second delay laterMs nextMs : Nat} {data' : List UInt8}

/-- An exchange whose reply comes in time. -/
theorem Clock.returns_exchange (attempts : Nat) (hshort : data.length ≤ 1024) (cmd' : UInt8)
    (seq' : UInt16) (hshort' : data'.length ≤ 1024) (hdelay : delay ≤ timeoutMs)
    (hlater : laterMs = nowMs + delay) :
    Returns ((Clock.link timeoutMs).exchange ⟨cmd'.toNat, seq'.toNat, data'⟩ (attempts + 1))
      ⟨nowMs, [], [], [(delay, sendFrame cmd seq data)] :: answers⟩
      ⟨cmd.toNat, seq.toNat, data⟩ ⟨laterMs, [], [], answers⟩ := by
  have hreceive : Returns ((Clock.link timeoutMs).within timeoutMs).receive
      ⟨nowMs, [], [(nowMs + delay, sendFrame cmd seq data)], answers⟩ _ _ :=
    Clock.returns_receive timeoutMs hshort (Nat.add_le_add_left hdelay nowMs)
  rw [Nat.max_eq_right (Nat.le_add_right nowMs delay)] at hreceive
  subst hlater
  exact Wire.returns_exchange attempts hshort' hreceive

end Boards

section Boards

variable {verdict : UInt8} {data : List UInt8} {before s s' : Clock}

end Boards

end OtaBoot.Host
