import Mathlib.Data.List.Basic
import OtaBoot.Host.Parser

/-!
# Frames in a stream

The receiver of the firmware, fed one byte at a time, finds in any stream what the
reference parser finds in it read as a whole. So what either side encodes is what
the other side decodes, whatever noise comes before it.
-/

namespace OtaBoot.Host

open Storage LittleEndian Raising

/-- What the firmware makes of what a byte completed. -/
def RxEvent.report : RxEvent → List Report
  | .pending => []
  | .overlong => [.rejected]
  | .badCrc seq => [.badCrc seq.toNat]
  | .frame cmd seq data => [.dispatched ⟨cmd.toNat, seq.toNat, data⟩]

/-- What the firmware makes of bytes fed one after the other. -/
def reports (rx : Receiver) : List UInt8 → List Report
  | [] => []
  | byte :: bytes => RxEvent.report (rx.feed byte).2 ++ reports (rx.feed byte).1 bytes

/-- The receiver after some bytes. -/
def after (rx : Receiver) (bytes : List UInt8) : Receiver :=
  bytes.foldl (fun rx byte => (rx.feed byte).1) rx

section Streams

variable {rx rx' : Receiver} {bytes more : List UInt8}

theorem reports_absorbs (more : List UInt8) (h : rx.Absorbs bytes rx') :
    reports rx (bytes ++ more) = reports rx' more := by
  induction h with
  | nil => rfl
  | cons hpending _ ih =>
      rw [List.cons_append, reports, hpending, ih]
      rfl

theorem after_absorbs (more : List UInt8) (h : rx.Absorbs bytes rx') :
    after rx (bytes ++ more) = after rx' more := by
  induction h with
  | nil => rfl
  | cons _ _ ih => exact ih

/-- Bytes that complete nothing are not reported. -/
theorem reports_eq_nil (h : rx.Absorbs bytes rx') : reports rx bytes = [] := by
  have hreports := reports_absorbs [] h
  rwa [List.append_nil] at hreports

/-- A receiver that takes bytes in takes in the first of them. -/
theorem absorbs_of_prefix (h : rx.Absorbs more rx') (hfront : bytes <+: more) :
    ∃ rx'', rx.Absorbs bytes rx'' := by
  obtain ⟨rest, rfl⟩ := hfront
  obtain ⟨rx'', hfront, -⟩ := h.split
  exact ⟨rx'', hfront⟩

/-- Any five bytes are a header. -/
theorem exists_header (bytes : List UInt8) (h : bytes.length = 5) :
    ∃ cmd seq len, bytes = Receiver.headerBytes cmd seq len := by
  obtain ⟨cmd, fields, rfl⟩ := List.exists_cons_of_length_eq_add_one h
  obtain ⟨l₀, l₁, s₀, s₁, rfl⟩ := List.length_eq_four.mp (Nat.succ.inj h)
  exact ⟨cmd, word16 s₀ s₁, word16 l₀ l₁, by simp [Receiver.headerBytes]⟩

/-- Any four bytes are a CRC. -/
theorem exists_crc (bytes : List UInt8) (h : bytes.length = 4) : ∃ crc, bytes = bytes32 crc := by
  obtain ⟨b₀, b₁, b₂, b₃, rfl⟩ := List.length_eq_four.mp h
  exact ⟨word32 b₀ b₁ b₂ b₃, (bytes32_word32 _ _ _ _).symm⟩

end Streams

/-! ## The search for a magic -/

/-- The receiver looks for a magic; the bytes are those of it that it has. -/
inductive Hunting (rx : Receiver) : List UInt8 → Prop
  | start (hstate : rx.state = .magic0) : Hunting rx []
  | first {base : Memory UInt8} (hstate : rx.state = .magic1)
      (hframe : rx.frame = base.store 0 [frameMagic0]) : Hunting rx [frameMagic0]

section Hunting

variable {rx : Receiver} {seen bytes rest : List UInt8}

/-- The receiver has the magic of a frame, and nothing else of it. -/
def AtHeader (rx : Receiver) : Prop :=
  ∃ base : Memory UInt8, rx.Filled .header (base.store 0 [frameMagic0, frameMagic1]) 2 5

theorem afterPair_skip {a : UInt8} (h : a ≠ frameMagic0) (bytes : List UInt8) :
    afterPair (a :: bytes) = afterPair bytes := by
  cases bytes with
  | nil => rfl
  | cons b bytes =>
      rw [afterPair_cons, if_neg]
      intro hmagic
      exact h (List.cons.inj hmagic).1

theorem afterPair_skip_second {b : UInt8} (h : b ≠ frameMagic1) (bytes : List UInt8) :
    afterPair (frameMagic0 :: b :: bytes) = afterPair (b :: bytes) := by
  rw [afterPair_cons, if_neg]
  intro hmagic
  exact h (List.cons.inj (List.cons.inj hmagic).2).1

/-- A search either takes in everything, or stops behind the first magic. -/
def Searched (rx : Receiver) (bytes : List UInt8) : Option (List UInt8) → Prop
  | none => ∃ rx', rx.Absorbs bytes rx' ∧ ∃ seen, Hunting rx' seen
  | some rest => ∃ front rx', bytes = front ++ rest ∧ rx.Absorbs front rx' ∧ AtHeader rx'

theorem Searched.cons {byte : UInt8} {found : Option (List UInt8)}
    (hpending : (rx.feed byte).2 = .pending) (h : Searched (rx.feed byte).1 bytes found) :
    Searched rx (byte :: bytes) found := by
  cases found with
  | none =>
      obtain ⟨rx', habsorbs, hhunting⟩ := h
      exact ⟨rx', .cons hpending habsorbs, hhunting⟩
  | some rest =>
      obtain ⟨front, rx', rfl, habsorbs, hheader⟩ := h
      exact ⟨byte :: front, rx', rfl, .cons hpending habsorbs, hheader⟩

theorem Hunting.searched (h : Hunting rx seen) (bytes : List UInt8) :
    Searched rx bytes (afterPair (seen ++ bytes)) := by
  induction bytes generalizing rx seen with
  | nil =>
      have hnone : afterPair (seen ++ []) = none := by cases h <;> rfl
      rw [hnone]
      exact ⟨rx, .nil, seen, h⟩
  | cons byte bytes ih =>
      cases h with
      | start hstate =>
          rw [List.nil_append]
          by_cases hmagic : byte = frameMagic0
          · subst hmagic
            have hfeed : rx.feed frameMagic0 =
                ({ rx with frame := rx.frame.store 0 [frameMagic0], state := .magic1 },
                  .pending) := by
              simp only [Receiver.feed, hstate, if_true]
            refine .cons (by rw [hfeed]) ?_
            rw [hfeed]
            exact ih (@Hunting.first _ rx.frame rfl rfl)
          · have hfeed : rx.feed byte = (rx, .pending) := by
              simp only [Receiver.feed, hstate, if_neg hmagic]
            rw [afterPair_skip hmagic]
            refine .cons (by rw [hfeed]) ?_
            rw [hfeed]
            exact ih (.start hstate)
      | @first base hstate hframe =>
          change Searched rx _ (afterPair (frameMagic0 :: byte :: bytes))
          by_cases hsecond : byte = frameMagic1
          -- the magic is complete
          · subst hsecond
            have hfeed : rx.feed frameMagic1 =
                ({ frame := rx.frame.store 1 [frameMagic1], index := 2,
                   expected := UInt32.ofNat (OtaBoot.frameHeaderSize - 2), state := .header },
                  .pending) := by
              simp only [Receiver.feed, hstate, if_true]
            refine ⟨[frameMagic1], _, rfl, .cons (by rw [hfeed]) .nil, base, ?_⟩
            rw [hfeed]
            refine ⟨rfl, ?_, rfl, rfl⟩
            rw [hframe]
            exact (Memory.store_append base 0 [frameMagic0] [frameMagic1]).symm
          rw [afterPair_skip_second hsecond]
          by_cases hfirst : byte = frameMagic0
          -- the second 0xAA may be the start
          · subst hfirst
            have hfeed : rx.feed frameMagic0 =
                ({ rx with frame := rx.frame.store 0 [frameMagic0] }, .pending) := by
              simp only [Receiver.feed, hstate, if_neg hsecond, if_true]
            have hnext : Hunting { rx with frame := rx.frame.store 0 [frameMagic0] }
                [frameMagic0] := .first hstate rfl
            refine .cons (by rw [hfeed]) ?_
            rw [hfeed]
            exact ih hnext
          · have hfeed : rx.feed byte = ({ rx with state := .magic0 }, .pending) := by
              simp only [Receiver.feed, hstate, if_neg hsecond, if_neg hfirst]
            rw [afterPair_skip hfirst]
            refine .cons (by rw [hfeed]) ?_
            rw [hfeed]
            exact ih (.start rfl)

end Hunting

/-! ## Frames -/

section Frames

variable {rx : Receiver} {bytes : List UInt8}

/-- Bytes that do not make up a header are taken in. -/
theorem AtHeader.absorbs_short (h : AtHeader rx) (hshort : bytes.length < 5) :
    ∃ rx', rx.Absorbs bytes rx' := by
  obtain ⟨base, hfilled⟩ := h
  obtain ⟨rx', habsorbs, -⟩ := hfilled.absorbs (.inl rfl)
    (bytes ++ List.replicate (4 - bytes.length) 0)
    (by rw [List.length_append, List.length_replicate]; omega)
    (by rw [List.length_append, List.length_replicate]; omega)
  exact absorbs_of_prefix habsorbs (List.prefix_append _ _)

variable {cmd : UInt8} {seq len : UInt16} {data : List UInt8}

/-- A header that announces too much is rejected. -/
theorem AtHeader.reports_overlong (h : AtHeader rx) (rest : List UInt8) (hlong : 1024 < len.toNat) :
    ∃ rx', rx'.state = .magic0 ∧ reports rx (Receiver.headerBytes cmd seq len ++ rest) =
      .rejected :: reports rx' rest := by
  obtain ⟨base, hfilled⟩ := h
  obtain ⟨rx', habsorbs, hstate, hpushed⟩ := Receiver.absorbs_header cmd seq len hfilled
  have hfeed := Receiver.feed_header cmd seq hstate hpushed
  rw [if_pos hlong] at hfeed
  have hsplit : Receiver.headerBytes cmd seq len ++ rest =
      [cmd, len.toUInt8, (len >>> 8).toUInt8, seq.toUInt8] ++ ((seq >>> 8).toUInt8 :: rest) := rfl
  refine ⟨(rx'.push (seq >>> 8).toUInt8).reset, rfl, ?_⟩
  rw [hsplit, reports_absorbs _ habsorbs, reports, hfeed]
  rfl

/-- A whole frame is judged as the decoder judges it. -/
theorem AtHeader.reports_body (h : AtHeader rx) (rest : List UInt8)
    (hlen : len.toNat = data.length) (hshort : data.length ≤ 1024) (crc : UInt32) :
    ∃ rx', rx'.state = .magic0 ∧
      reports rx (Receiver.headerBytes cmd seq len ++ (data ++ bytes32 crc) ++ rest) =
        judge seq.toNat
            (decode (magic ++ (Receiver.headerBytes cmd seq len ++ (data ++ bytes32 crc)))) ++
          reports rx' rest := by
  obtain ⟨base, hfilled⟩ := h
  obtain ⟨front, last, rx', rx'', hbody, habsorbs, hfeed, hstate⟩ :=
    Receiver.feed_body cmd seq hlen hshort crc hfilled
  refine ⟨rx'', hstate, ?_⟩
  rw [decode_body cmd seq hlen hshort, hbody, List.append_assoc, List.singleton_append,
    reports_absorbs _ habsorbs, reports, hfeed]
  split <;> rfl

/-- A frame that does not end is taken in. -/
theorem AtHeader.absorbs_incomplete (h : AtHeader rx) (hshort : len.toNat ≤ 1024)
    (hlength : bytes.length < len.toNat + 4) :
    ∃ rx', rx.Absorbs (Receiver.headerBytes cmd seq len ++ bytes) rx' := by
  obtain ⟨base, hfilled⟩ := h
  -- some payload and CRC that begin with these bytes
  set pad := bytes ++ List.replicate (len.toNat + 4 - bytes.length) 0 with hpad
  have hpadded : pad.length = len.toNat + 4 := by
    rw [hpad, List.length_append, List.length_replicate]
    omega
  obtain ⟨crc, hcrc⟩ := exists_crc (pad.drop len.toNat)
    (by rw [List.length_drop]; omega)
  have hdata : len.toNat = (pad.take len.toNat).length := by
    rw [List.length_take]
    omega
  obtain ⟨front, last, rx', -, hbody, habsorbs, -⟩ :=
    Receiver.feed_body cmd seq hdata (by omega) crc hfilled
  rw [← hcrc, List.take_append_drop] at hbody
  have hfront : Receiver.headerBytes cmd seq len ++ bytes <+: front ++ [last] := by
    rw [← hbody]
    exact (List.prefix_append_right_inj _).mpr (List.prefix_append _ _)
  refine absorbs_of_prefix habsorbs
    (List.prefix_of_prefix_length_le hfront (List.prefix_append _ _) ?_)
  have hlen := congrArg List.length hbody
  simp only [List.length_append, List.length_singleton, Receiver.length_headerBytes] at hlen ⊢
  omega

end Frames

/-! ## Streams -/

section Parse

variable {bytes rest : List UInt8}

theorem parse_eq_nil (h : afterPair bytes = none) : parse bytes = [] := by
  rw [parse]
  split
  · rfl
  next hsome =>
    rw [h] at hsome
    cases hsome

theorem parse_eq (h : afterPair bytes = some rest) :
    parse bytes =
      if rest.length < 5 then []
      else if unpackField (rest.extract 1 3) > 1024 then .rejected :: parse (rest.drop 5)
      else if rest.length < 5 + unpackField (rest.extract 1 3) + 4 then []
      else judge (unpackField (rest.extract 3 5))
          (decode (magic ++ rest.take (5 + unpackField (rest.extract 1 3) + 4))) ++
        parse (rest.drop (5 + unpackField (rest.extract 1 3) + 4)) := by
  rw [parse]
  split
  next hnone =>
    rw [h] at hnone
    cases hnone
  next rest' hsome =>
    rw [h] at hsome
    cases hsome
    rfl

variable {cmd : UInt8} {seq len : UInt16} {tail : List UInt8}

/-- The parser behind a magic and a header. -/
theorem parse_header (h : afterPair bytes = some (Receiver.headerBytes cmd seq len ++ tail)) :
    parse bytes =
      if 1024 < len.toNat then .rejected :: parse tail
      else if tail.length < len.toNat + 4 then []
      else judge seq.toNat (decode (magic ++
          (Receiver.headerBytes cmd seq len ++ tail.take (len.toNat + 4)))) ++
        parse (tail.drop (len.toNat + 4)) := by
  have hlen : unpackField ((Receiver.headerBytes cmd seq len ++ tail).extract 1 3) =
      len.toNat := unpackField_bytes16 len
  have hseq : unpackField ((Receiver.headerBytes cmd seq len ++ tail).extract 3 5) =
      seq.toNat := unpackField_bytes16 seq
  have htotal : 5 + len.toNat + 4 = (Receiver.headerBytes cmd seq len).length +
      (len.toNat + 4) := Nat.add_assoc _ _ _
  have hfive : ¬ (Receiver.headerBytes cmd seq len ++ tail).length < 5 := by
    rw [List.length_append, Receiver.length_headerBytes]
    omega
  have hshort : (Receiver.headerBytes cmd seq len ++ tail).length < 5 + len.toNat + 4 ↔
      tail.length < len.toNat + 4 := by
    rw [List.length_append, Receiver.length_headerBytes]
    omega
  rw [parse_eq h, hlen, hseq, if_neg hfive]
  simp only [hshort, gt_iff_lt]
  rw [htotal, List.take_length_add_append, List.drop_length_add_append]
  rfl

/-- What is long enough begins with a payload and a CRC. -/
theorem exists_body {count : Nat} (h : count + 4 ≤ tail.length) :
    ∃ data crc rest, tail = data ++ bytes32 crc ++ rest ∧ count = data.length := by
  obtain ⟨crc, hcrc⟩ := exists_crc ((tail.drop count).take 4)
    (by rw [List.length_take, List.length_drop]; omega)
  refine ⟨tail.take count, crc, tail.drop (count + 4), ?_, ?_⟩
  · rw [← hcrc, ← List.take_add, List.take_append_drop]
  · rw [List.length_take]
    omega

/-- The parser behind a magic and the rest of a frame. -/
theorem parse_body {data : List UInt8} {crc : UInt32} (hlen : len.toNat = data.length)
    (hshort : data.length ≤ 1024)
    (h : afterPair bytes =
      some (Receiver.headerBytes cmd seq len ++ (data ++ bytes32 crc ++ rest))) :
    parse bytes = judge seq.toNat
        (decode (magic ++ (Receiver.headerBytes cmd seq len ++ (data ++ bytes32 crc)))) ++
      parse rest := by
  have hcount : len.toNat + 4 = (data ++ bytes32 crc).length := by
    rw [List.length_append, length_bytes32, hlen]
  rw [parse_header h, if_neg (by omega), if_neg, hcount, List.take_left, List.drop_left]
  rw [List.length_append]
  omega

end Parse

/-- The firmware makes of every stream what the reference parser makes of it. -/
theorem reports_eq_parse {rx : Receiver} (hreset : rx.state = .magic0) (bytes : List UInt8) :
    reports rx bytes = parse bytes := by
  induction hlength : bytes.length using Nat.strongRecOn generalizing rx bytes with
  | ind length ih =>
  subst hlength
  have hsearched := (Hunting.start hreset).searched bytes
  rw [List.nil_append] at hsearched
  cases hfound : afterPair bytes with
  | none =>
      rw [hfound] at hsearched
      obtain ⟨rx', habsorbs, -⟩ := hsearched
      rw [reports_eq_nil habsorbs, parse_eq_nil hfound]
  | some rest =>
      rw [hfound] at hsearched
      obtain ⟨front, rx₁, rfl, habsorbs, hheader⟩ := hsearched
      have hrest := length_afterPair hfound
      rw [reports_absorbs rest habsorbs]
      by_cases hfew : rest.length < 5
      · obtain ⟨rx', hshort⟩ := hheader.absorbs_short hfew
        rw [parse_eq hfound, if_pos hfew, reports_eq_nil hshort]
      obtain ⟨cmd, seq, len, hfields⟩ := exists_header (rest.take 5)
        (by rw [List.length_take]; omega)
      obtain ⟨tail, rfl⟩ : ∃ tail, rest = Receiver.headerBytes cmd seq len ++ tail :=
        ⟨rest.drop 5, by rw [← hfields, List.take_append_drop]⟩
      have hsplit : (Receiver.headerBytes cmd seq len ++ tail).length = 5 + tail.length :=
        List.length_append
      by_cases hlong : 1024 < len.toNat
      -- the stream goes on behind the header
      · obtain ⟨rx', hstate, hreports⟩ := hheader.reports_overlong tail hlong
        rw [parse_header hfound, if_pos hlong, hreports, ih _ (by omega) hstate tail rfl]
      by_cases hincomplete : tail.length < len.toNat + 4
      · obtain ⟨rx', habsorbed⟩ := hheader.absorbs_incomplete (by omega) hincomplete
        rw [parse_header hfound, if_neg hlong, if_pos hincomplete, reports_eq_nil habsorbed]
      -- it goes on behind the frame
      obtain ⟨data, crc, rest, rfl, hdata⟩ := exists_body (Nat.not_lt.mp hincomplete)
      obtain ⟨rx', hstate, hreports⟩ := hheader.reports_body rest hdata (by omega) crc
      have hshorter : rest.length < (data ++ bytes32 crc ++ rest).length := by
        rw [List.length_append, List.length_append, length_bytes32]
        omega
      rw [parse_body hdata (by omega) hfound, ← List.append_assoc, hreports,
        ih _ (by omega) hstate rest rfl]

/-! ## The manager -/

section Manager

/-- What the manager does about a report. -/
def act (p : Protocol) : Report → FlashM Protocol
  | .rejected => pure { p with cntFramesKo := p.cntFramesKo + 1 }
  | .badCrc seq =>
      pure ({ p with cntFramesKo := p.cntFramesKo + 1 }.sendNack (UInt16.ofNat seq) errCrc)
  | .dispatched frame => p.dispatch (UInt8.ofNat frame.cmd) (UInt16.ofNat frame.seq) frame.data

/-- The same manager with another receiver. -/
def withRx (rx : Receiver) (p : Protocol) : Protocol := { p with rx }

variable (p : Protocol) (rx : Receiver)

/-- No command handler looks at the receiver. -/
theorem dispatch_withRx (cmd : UInt8) (seq : UInt16) (data : List UInt8) :
    (withRx rx p).dispatch cmd seq data = withRx rx <$> p.dispatch cmd seq data := by
  have hinfo (p : Protocol) : (withRx rx p).onGetInfo seq = withRx rx <$> p.onGetInfo seq := by
    simp only [Protocol.onGetInfo, map_bind, map_pure]
    rfl
  have hstart (p : Protocol) :
      (withRx rx p).onStartUpdate seq data = withRx rx <$> p.onStartUpdate seq data := by
    simp only [Protocol.onStartUpdate, map_bind, map_pure, apply_ite (withRx rx <$> ·)]
    rfl
  have hdata (p : Protocol) : (withRx rx p).onData seq data = withRx rx <$> p.onData seq data := by
    simp only [Protocol.onData, map_bind, map_pure, apply_ite (withRx rx <$> ·)]
    rfl
  have hend (p : Protocol) :
      (withRx rx p).onEndUpdate seq = withRx rx <$> p.onEndUpdate seq := by
    simp only [Protocol.onEndUpdate, map_bind, map_pure, apply_ite (withRx rx <$> ·)]
    rfl
  simp only [Protocol.dispatch, apply_ite (withRx rx <$> ·), map_pure, ← hinfo, ← hstart, ← hdata,
    ← hend]
  rfl

theorem act_withRx (report : Report) : act (withRx rx p) report = withRx rx <$> act p report := by
  cases report with
  | rejected | badCrc => rfl
  | dispatched frame => exact dispatch_withRx p rx _ _ _

theorem foldlM_withRx (found : List Report) :
    found.foldlM act (withRx rx p) = withRx rx <$> found.foldlM act p := by
  induction found generalizing p with
  | nil => rfl
  | cons report found ih =>
      rw [List.foldlM_cons, List.foldlM_cons, act_withRx, map_bind, bind_map_left]
      exact bind_congr ih

/-- What a byte completed is acted on. -/
theorem feed_eq_act (byte : UInt8) :
    p.feed byte =
      withRx (p.rx.feed byte).1 <$> (RxEvent.report (p.rx.feed byte).2).foldlM act p := by
  rw [← foldlM_withRx, Protocol.feed]
  cases (p.rx.feed byte).2 with
  | pending => rfl
  | overlong => exact (bind_pure _).symm
  | badCrc seq =>
      rw [RxEvent.report, List.foldlM_cons, act, UInt16.ofNat_toNat]
      exact (bind_pure _).symm
  | frame cmd seq data =>
      rw [RxEvent.report, List.foldlM_cons, act, UInt16.ofNat_toNat, UInt8.ofNat_toNat]
      exact (bind_pure _).symm

/-- Bytes that are fed one after the other. -/
def feedAll (bytes : List UInt8) : FlashM Protocol := bytes.foldlM Protocol.feed p

/-- The manager acts on what its receiver reports, in order. -/
theorem feedAll_eq_act (bytes : List UInt8) :
    feedAll p bytes = withRx (after p.rx bytes) <$> (reports p.rx bytes).foldlM act p := by
  induction bytes generalizing p with
  | nil => rfl
  | cons byte bytes ih =>
      have hnext (q : Protocol) : feedAll (withRx (p.rx.feed byte).1 q) bytes =
          withRx (after (p.rx.feed byte).1 bytes) <$>
            (reports (p.rx.feed byte).1 bytes).foldlM act q := by
        rw [ih]
        change _ <$> (reports (p.rx.feed byte).1 bytes).foldlM act (withRx _ q) = _
        rw [foldlM_withRx, ← comp_map]
        rfl
      rw [feedAll, List.foldlM_cons, feed_eq_act, bind_map_left, reports, List.foldlM_append,
        map_bind]
      exact bind_congr hnext

end Manager

/-- Byte after byte, from the reset receiver, the manager does what the reference
parser finds in the whole stream. -/
theorem feed_refines_parse (p : Protocol) (bytes : List UInt8) :
    reports p.rx.reset bytes = parse bytes ∧
      feedAll (withRx p.rx.reset p) bytes =
        withRx (after p.rx.reset bytes) <$> (parse bytes).foldlM act p := by
  have hreports : reports p.rx.reset bytes = parse bytes := reports_eq_parse rfl bytes
  refine ⟨hreports, ?_⟩
  rw [feedAll_eq_act, foldlM_withRx, ← hreports, ← comp_map]
  rfl

/-! ## Round trips -/

section RoundTrip

/-- A frame that the fields have room for. -/
structure Frame.Encodable (frame : Frame) : Prop where
  cmd : frame.cmd < 256
  seq : frame.seq < 65536
  short : frame.data.length ≤ 1024

/-- Frames as the host encodes them, each after some noise. -/
def noisyStream : List (List UInt8 × Frame) → Except HostError (List UInt8)
  | [] => pure []
  | (noise, frame) :: items => do
      let raw ← encode frame
      let rest ← noisyStream items
      pure (noise ++ raw ++ rest)

variable {frame : Frame} {noise : List UInt8}

/-- A frame that can be encoded is one that the firmware might send. -/
theorem Frame.Encodable.encode_eq (h : frame.Encodable) :
    encode frame =
      .ok (sendFrame (UInt8.ofNat frame.cmd) (UInt16.ofNat frame.seq) frame.data) := by
  have hencode := OtaBoot.Host.encode_eq (UInt8.ofNat frame.cmd) (UInt16.ofNat frame.seq) h.short
  rwa [UInt8.toNat_ofNat_of_lt' h.cmd, UInt16.toNat_ofNat_of_lt' h.seq] at hencode

/-- A frame after noise is dispatched, and the receiver hunts for the next. -/
theorem noisy_frame {rx : Receiver} (rest : List UInt8) (hstate : rx.state = .magic0)
    (hnoise : ¬ magic <:+: noise)
    (cmd : UInt8) (seq : UInt16) {data : List UInt8} (hshort : data.length ≤ 1024) :
    ∃ rx', rx'.state = .magic0 ∧
      reports rx (noise ++ sendFrame cmd seq data ++ rest) =
        .dispatched ⟨cmd.toNat, seq.toNat, data⟩ :: reports rx' rest ∧
      after rx (noise ++ sendFrame cmd seq data ++ rest) = after rx' rest := by
  have hstream : noise ++ sendFrame cmd seq data ++ rest =
      noise ++ (magic ++ (body cmd seq data ++ rest)) := by
    rw [sendFrame_eq_magic, List.append_assoc, List.append_assoc]
  have hsearched :=
    (Hunting.start hstate).searched (noise ++ (magic ++ (body cmd seq data ++ rest)))
  rw [List.nil_append, afterPair_noise hnoise] at hsearched
  obtain ⟨front, rx₁, hsplit, habsorbs, base, hfilled⟩ := hsearched
  obtain ⟨init, last, rx₂, rx', hframe, habsorbs', hfeed, hstate'⟩ := Receiver.feed_body cmd seq
    (Receiver.toNat_length_field hshort) hshort (crc32Compute (Receiver.covered cmd seq data))
    hfilled
  rw [show Receiver.headerBytes cmd seq (UInt16.ofNat data.length) ++ data =
    Receiver.covered cmd seq data from rfl, if_pos rfl] at hfeed
  have hlast : body cmd seq data ++ rest = init ++ (last :: rest) := by
    rw [List.append_cons, ← hframe, body, Receiver.covered, List.append_assoc _ data]
    rfl
  refine ⟨rx', hstate', ?_, ?_⟩
  · rw [hstream, hsplit, reports_absorbs _ habsorbs, hlast, reports_absorbs _ habsorbs', reports,
      hfeed]
    rfl
  · rw [hstream, hsplit, after_absorbs _ habsorbs, hlast, after_absorbs _ habsorbs']
    exact congrArg (fun fed => after fed.1 rest) hfeed

/-- A frame that comes after noise is received. -/
theorem returns_receive_noisy {l : Link} {more : List UInt8} (hnoise : ¬ magic <:+: noise)
    {cmd : UInt8} {seq : UInt16} {data : List UInt8} (hshort : data.length ≤ 1024)
    (hinbox : l.inbox = noise ++ sendFrame cmd seq data ++ more) :
    Returns receive l ⟨cmd.toNat, seq.toNat, data⟩ { l with inbox := more } := by
  refine returns_receive_found hshort ?_
  rw [hinbox, sendFrame_eq_magic, List.append_assoc, List.append_assoc, afterMagic_eq,
    afterPair_noise hnoise]

/-- What one side encodes the other side decodes, whatever noise comes first. -/
theorem codecs_inverse :
    (∀ items : List (List UInt8 × Frame),
      (∀ item ∈ items, ¬ magic <:+: item.1 ∧ item.2.Encodable) →
      ∃ stream, noisyStream items = .ok stream ∧ ∀ rx : Receiver,
        reports rx.reset stream = items.map (fun item => .dispatched item.2) ∧
        (after rx.reset stream).state = .magic0) ∧
    ∀ (l : Link) (noise : List UInt8) (cmd : UInt8) (seq : UInt16) (data more : List UInt8),
      ¬ magic <:+: noise → data.length ≤ 1024 →
      l.inbox = noise ++ sendFrame cmd seq data ++ more →
      Returns receive l ⟨cmd.toNat, seq.toNat, data⟩ { l with inbox := more } := by
  refine ⟨fun items hitems => ?_, fun l noise cmd seq data more hnoise hshort hinbox =>
    returns_receive_noisy hnoise hshort hinbox⟩
  suffices h : ∃ stream, noisyStream items = .ok stream ∧ ∀ rx : Receiver, rx.state = .magic0 →
      reports rx stream = items.map (fun item => .dispatched item.2) ∧
        (after rx stream).state = .magic0 by
    obtain ⟨stream, hstream, hread⟩ := h
    exact ⟨stream, hstream, fun rx => hread rx.reset rfl⟩
  induction items with
  | nil => exact ⟨[], rfl, fun rx hstate => ⟨rfl, hstate⟩⟩
  | cons item items ih =>
      obtain ⟨noise, frame⟩ := item
      obtain ⟨hnoise, hframe⟩ := hitems _ List.mem_cons_self
      obtain ⟨rest, hrest, hread⟩ := ih fun item hitem => hitems item (List.mem_cons_of_mem _ hitem)
      have hstream : noisyStream ((noise, frame) :: items) = .ok (noise ++
          sendFrame (UInt8.ofNat frame.cmd) (UInt16.ofNat frame.seq) frame.data ++ rest) := by
        rw [noisyStream, hframe.encode_eq, hrest]
        rfl
      refine ⟨_, hstream, fun rx hstate => ?_⟩
      obtain ⟨rx', hstate', hreports, hafter⟩ := noisy_frame rest hstate hnoise
        (UInt8.ofNat frame.cmd) (UInt16.ofNat frame.seq) hframe.short
      obtain ⟨hreports', hafter'⟩ := hread rx' hstate'
      rw [UInt8.toNat_ofNat_of_lt' hframe.cmd, UInt16.toNat_ofNat_of_lt' hframe.seq] at hreports
      rw [hreports, hreports', hafter]
      exact ⟨rfl, hafter'⟩

/-- Noise that ends like a magic begins, and a payload that is a magic. -/
theorem codecs_inverse_twoFrames :
    (∃ stream, noisyStream [([0xAA], ⟨5, 1, []⟩), ([], ⟨3, 2, [0xAA, 0x55]⟩)] = .ok stream ∧
      reports protocolInit.rx.reset stream =
        [.dispatched ⟨5, 1, []⟩, .dispatched ⟨3, 2, [0xAA, 0x55]⟩] ∧
      (after protocolInit.rx.reset stream).state = .magic0) ∧
    Returns receive
      ⟨Board.blank.flash, protocolInit, [0, 0xAA] ++ sendFrame OtaBoot.rspAck 7 [] ++ [1], []⟩
      ⟨0x82, 7, []⟩ ⟨Board.blank.flash, protocolInit, [1], []⟩ := by
  obtain ⟨hforth, hback⟩ := codecs_inverse
  refine ⟨?_, hback _ [0, 0xAA] OtaBoot.rspAck 7 [] [1] (by decide) (by decide) rfl⟩
  obtain ⟨stream, hstream, hread⟩ := hforth [([0xAA], ⟨5, 1, []⟩), ([], ⟨3, 2, [0xAA, 0x55]⟩)] (by
    intro item hitem
    rcases List.mem_pair.mp hitem with rfl | rfl
    · exact ⟨by decide, by decide, by decide, by decide⟩
    · exact ⟨by decide, by decide, by decide, by decide⟩)
  exact ⟨stream, hstream, hread protocolInit.rx⟩

end RoundTrip

end OtaBoot.Host
