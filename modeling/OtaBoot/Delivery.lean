import OtaBoot.Lifecycle

/-!
# Frames that arrive intact

A receiver that hunts for the start of a frame and is given a well-formed one,
byte after byte, does nothing until the last byte, and then dispatches exactly
what was sent. Without faults the dispatched command is carried out.
-/

namespace OtaBoot

open Storage LittleEndian

/-! ## The receiver -/

namespace Receiver

/-- The receiver takes bytes in without completing anything. -/
inductive Absorbs : Receiver → List UInt8 → Receiver → Prop
  | nil {rx : Receiver} : Absorbs rx [] rx
  | cons {rx rx' : Receiver} {byte : UInt8} {bytes : List UInt8}
      (hpending : (rx.feed byte).2 = .pending) (hrest : Absorbs (rx.feed byte).1 bytes rx') :
      Absorbs rx (byte :: bytes) rx'

theorem Absorbs.append {rx rx' rx'' : Receiver} {front back : List UInt8}
    (h : Absorbs rx front rx') (h' : Absorbs rx' back rx'') : Absorbs rx (front ++ back) rx'' := by
  induction h with
  | nil => exact h'
  | cons hpending _ ih => exact .cons hpending (ih h')

/-- Bytes that are taken in are taken in one after the other. -/
theorem Absorbs.split {rx rx'' : Receiver} {front back : List UInt8}
    (h : Absorbs rx (front ++ back) rx'') :
    ∃ rx', Absorbs rx front rx' ∧ Absorbs rx' back rx'' := by
  induction front generalizing rx with
  | nil => exact ⟨rx, .nil, h⟩
  | cons byte front ih =>
      cases h with
      | cons hpending hrest =>
          obtain ⟨rx', hfront, hback⟩ := ih hrest
          exact ⟨rx', .cons hpending hfront, hback⟩

/-- Inside a frame: the state, the buffer, how much of it is filled, and how
many bytes the state still waits for. -/
structure Filled (rx : Receiver) (state : RxState) (frame : Memory UInt8) (index expected : Nat) :
    Prop where
  state : rx.state = state
  frame : rx.frame = frame
  index : rx.index.toNat = index
  expected : rx.expected.toNat = expected

/-- The states that count bytes. -/
def Counting (state : RxState) : Prop := state = .header ∨ state = .data ∨ state = .crc

section Filling

variable {rx : Receiver} {state : RxState} {frame : Memory UInt8} {index expected : Nat}
  {byte : UInt8}

theorem toNat_index_push (hindex : rx.index.toNat < 65536) (byte : UInt8) :
    (rx.push byte).index.toNat = rx.index.toNat + 1 := by
  simp only [Receiver.push, UInt32.toNat_add, UInt32.toNat_one]
  omega

theorem toNat_expected_push (hmore : 1 ≤ rx.expected.toNat) (byte : UInt8) :
    (rx.push byte).expected.toNat = rx.expected.toNat - 1 := by
  have hle : 1 ≤ rx.expected := UInt32.le_iff_toNat_le.mpr hmore
  simp only [Receiver.push]
  rw [UInt32.toNat_sub_of_le _ _ hle, UInt32.toNat_one]

theorem Filled.push (h : Filled rx state frame index (expected + 1)) (hindex : index < 65536)
    (byte : UInt8) :
    Filled (rx.push byte) state (frame.store index [byte]) (index + 1) expected := by
  obtain ⟨hstate, hframe, rfl, hexpected⟩ := h
  refine ⟨hstate, by simp only [Receiver.push, hframe], toNat_index_push hindex byte, ?_⟩
  rw [toNat_expected_push (by omega), hexpected]
  rfl

/-- Before the last byte that a state waits for, bytes are only buffered. -/
theorem Filled.feed_more (h : Filled rx state frame index (expected + 1 + 1))
    (hcounting : Counting state) (hindex : index < 65536) (byte : UInt8) :
    rx.feed byte = (rx.push byte, .pending) := by
  have hmore : (rx.push byte).expected ≠ 0 := by
    intro hzero
    have := (h.push hindex byte).expected
    rw [hzero] at this
    cases this
  unfold Receiver.feed
  rw [h.state]
  rcases hcounting with rfl | rfl | rfl <;> simp only [hmore, if_false]

/-- All bytes that a state waits for, but the last. -/
theorem Filled.absorbs {total : Nat} (h : Filled rx state frame index total)
    (hcounting : Counting state) (bytes : List UInt8) (htotal : total = bytes.length + 1)
    (hindex : index + bytes.length ≤ 65536) :
    ∃ rx', Absorbs rx bytes rx' ∧
      Filled rx' state (frame.store index bytes) (index + bytes.length) 1 := by
  subst htotal
  induction bytes generalizing rx frame index with
  | nil => exact ⟨rx, .nil, by simpa using h⟩
  | cons byte bytes ih =>
      simp only [List.length_cons] at h hindex
      have hsmall : index < 65536 := by omega
      have hfeed := h.feed_more hcounting hsmall byte
      obtain ⟨rx', habsorbs, hfilled⟩ := ih (by omega) (h.push hsmall byte)
      refine ⟨rx', .cons (by rw [hfeed]) (by rw [hfeed]; exact habsorbs), ?_⟩
      rw [show byte :: bytes = [byte] ++ bytes from rfl, Memory.store_append, List.length_append,
        ← Nat.add_assoc]
      exact hfilled

theorem Filled.expected_zero (h : Filled rx state frame index 0) : rx.expected = 0 :=
  UInt32.toNat_inj.mp h.expected

end Filling

/-! ## A whole frame -/

section Frame

variable (cmd : UInt8) (seq : UInt16) (data : List UInt8)

/-- The header of a frame, without its magic. -/
def header : List UInt8 := [cmd] ++ bytes16 (UInt16.ofNat data.length) ++ bytes16 seq

/-- The bytes of a frame that its CRC covers. -/
def covered : List UInt8 := header cmd seq data ++ data

theorem sendFrame_eq :
    sendFrame cmd seq data =
      [frameMagic0, frameMagic1] ++ (covered cmd seq data ++
        bytes32 (crc32Compute (covered cmd seq data))) := by
  unfold sendFrame
  dsimp only
  rw [← crc32Update_append]
  simp [covered, header, crc32Compute, frameOffCmd]

@[simp] theorem length_header : (header cmd seq data).length = 5 := rfl

@[simp] theorem length_covered : (covered cmd seq data).length = 5 + data.length := by
  simp [covered]

theorem length_sendFrame : (sendFrame cmd seq data).length = 11 + data.length := by
  simp [sendFrame_eq]
  omega

variable {data} {rx : Receiver}

/-- The receiver looks for the start of a frame. -/
def Hunting (rx : Receiver) : Prop := rx.state = .magic0 ∨ rx.state = .magic1

/-- A receiver that has seen a first magic byte takes another one as the first. -/
theorem Hunting.feed_magic (h : rx.Hunting) :
    rx.feed frameMagic0 =
      ({ rx with frame := rx.frame.store 0 [frameMagic0], state := .magic1 }, .pending) := by
  rcases h with h | h
  · simp [Receiver.feed, h]
  · simp [Receiver.feed, h, frameMagic0, frameMagic1]

theorem absorbs_magic (h : rx.Hunting) :
    ∃ rx', Absorbs rx [frameMagic0, frameMagic1] rx' ∧
      Filled rx' .header (rx.frame.store 0 [frameMagic0, frameMagic1]) 2 5 := by
  refine ⟨((rx.feed frameMagic0).1.feed frameMagic1).1, ?_, ?_⟩
  · refine .cons (by rw [h.feed_magic]) (.cons ?_ .nil)
    rw [h.feed_magic]
    simp [Receiver.feed]
  · have hstore : (rx.frame.store 0 [frameMagic0]).store 1 [frameMagic1] =
        rx.frame.store 0 [frameMagic0, frameMagic1] :=
      (Memory.store_append rx.frame 0 [frameMagic0] [frameMagic1]).symm
    rw [h.feed_magic]
    constructor <;> simp [Receiver.feed, hstore, frameHeaderSize]

theorem toNat_length_field (hlen : data.length ≤ 1024) :
    (UInt16.ofNat data.length).toNat = data.length := by
  rw [UInt16.toNat_ofNat']
  exact Nat.mod_eq_of_lt (by omega)

theorem store_buffered (base : Memory UInt8) (front back : List UInt8) {index : Nat}
    (hindex : front.length = index) :
    (base.store 0 front).store index back = base.store 0 (front ++ back) := by
  rw [Memory.store_append, Nat.zero_add, hindex]

/-- The five bytes of a header, whatever its LENGTH. -/
def headerBytes (len : UInt16) : List UInt8 := [cmd] ++ bytes16 len ++ bytes16 seq

@[simp] theorem length_headerBytes (len : UInt16) : (headerBytes cmd seq len).length = 5 := rfl

/-- A buffered header. -/
def HeaderIn (frame base : Memory UInt8) (len : UInt16) (rest : List UInt8) : Prop :=
  frame = base.store 0 ([frameMagic0, frameMagic1] ++ headerBytes cmd seq len ++ rest)

variable {len : UInt16}

/-- The header fields of a buffered frame. -/
theorem HeaderIn.fields {base : Memory UInt8} {rest : List UInt8}
    (h : HeaderIn cmd seq rx.frame base len rest) :
    rx.frame frameOffCmd = cmd ∧ rx.len = len ∧ rx.seq = seq := by
  have hcell (i : Nat) (byte : UInt8)
      (hbyte : ([frameMagic0, frameMagic1] ++ headerBytes cmd seq len ++ rest)[i]? =
        some byte) : rx.frame i = byte := by
    obtain ⟨hi, hget⟩ := List.getElem?_eq_some_iff.mp hbyte
    rw [h, ← hget, ← Memory.store_apply_of_mem base 0 _ i hi, Nat.zero_add]
  refine ⟨hcell 2 _ rfl, ?_, ?_⟩
  · rw [Receiver.len, frameOffLength, hcell 3 _ rfl, hcell 4 _ rfl]
    exact word16_bytes len
  · rw [Receiver.seq, frameOffSeq, hcell 5 _ rfl, hcell 6 _ rfl]
    exact word16_bytes seq

/-- A header is buffered up to its last byte. -/
theorem absorbs_header {base : Memory UInt8} (len : UInt16)
    (h : Filled rx .header (base.store 0 [frameMagic0, frameMagic1]) 2 5) :
    ∃ rx', Absorbs rx [cmd, len.toUInt8, (len >>> 8).toUInt8, seq.toUInt8] rx' ∧
      rx'.state = .header ∧
      Filled (rx'.push (seq >>> 8).toUInt8) .header
        (base.store 0 ([frameMagic0, frameMagic1] ++ headerBytes cmd seq len)) 7 0 := by
  obtain ⟨rx', habsorbs, hfilled⟩ := h.absorbs (.inl rfl)
    [cmd, len.toUInt8, (len >>> 8).toUInt8, seq.toUInt8] rfl (by simp)
  have hpushed := hfilled.push (by simp) (seq >>> 8).toUInt8
  refine ⟨rx', habsorbs, hfilled.state, ?_⟩
  change Filled _ _ (Memory.store _ 6 _) 7 0 at hpushed
  have hframe : ((base.store 0 [frameMagic0, frameMagic1]).store 2
      [cmd, len.toUInt8, (len >>> 8).toUInt8, seq.toUInt8]).store 6 [(seq >>> 8).toUInt8] =
      base.store 0 ([frameMagic0, frameMagic1] ++ headerBytes cmd seq len) :=
    (congrArg (Memory.store · 6 _) (store_buffered base _ _ rfl)).trans
      (store_buffered base _ _ rfl)
  exact hframe ▸ hpushed

/-- What comes after a header: nothing, when it announces too much; else the
payload, or the CRC when there is none. -/
theorem feed_header {base : Memory UInt8} {byte : UInt8} (hstate : rx.state = .header)
    (hpushed : Filled (rx.push byte) .header
      (base.store 0 ([frameMagic0, frameMagic1] ++ headerBytes cmd seq len)) 7 0) :
    rx.feed byte =
      if 1024 < len.toNat then ((rx.push byte).reset, .overlong)
      else if len.toNat = 0 then
        ({ rx.push byte with expected := UInt32.ofNat frameCrcSize, state := .crc }, .pending)
      else ({ rx.push byte with expected := len.toUInt32, state := .data }, .pending) := by
  have hheader : HeaderIn cmd seq (rx.push byte).frame base len [] := by
    rw [HeaderIn, List.append_nil]
    exact hpushed.frame
  have hbound : len.toUInt32 > maxPayloadSize ↔ 1024 < len.toNat := by
    rw [gt_iff_lt, UInt32.lt_iff_toNat_lt, UInt16.toNat_toUInt32]
    rfl
  have hzero : len = 0 ↔ len.toNat = 0 := UInt16.toNat_inj.symm
  unfold Receiver.feed
  rw [hstate]
  simp only [hpushed.expected_zero, if_true, (hheader.fields).2.1, hbound, hzero]

/-- After a header that the buffer has room for, the receiver waits for the
payload, or for the CRC. -/
theorem filled_after_header {base : Memory UInt8} {byte : UInt8} (hstate : rx.state = .header)
    (hlen : len.toNat = data.length) (hshort : data.length ≤ 1024)
    (hpushed : Filled (rx.push byte) .header
      (base.store 0 ([frameMagic0, frameMagic1] ++ headerBytes cmd seq len)) 7 0) :
    (rx.feed byte).2 = .pending ∧
      Filled (rx.feed byte).1 (if data = [] then .crc else .data)
        (base.store 0 ([frameMagic0, frameMagic1] ++ headerBytes cmd seq len)) 7
        (if data = [] then 4 else data.length) := by
  rw [feed_header cmd seq hstate hpushed, if_neg (by omega)]
  by_cases hdata : data = []
  · rw [if_pos hdata, if_pos hdata, if_pos (by rw [hlen, hdata]; rfl)]
    exact ⟨rfl, rfl, hpushed.frame, hpushed.index, rfl⟩
  · have hpos := List.length_pos_iff.mpr hdata
    rw [if_neg hdata, if_neg hdata, if_neg (by omega)]
    exact ⟨rfl, rfl, hpushed.frame, hpushed.index, (UInt16.toNat_toUInt32 len).trans hlen⟩

/-- After the payload the receiver waits for the CRC. -/
theorem absorbs_payload {base : Memory UInt8} {front : List UInt8} (hfront : front.length = 7)
    (hlen : data.length ≤ 1024)
    (h : Filled rx (if data = [] then .crc else .data) (base.store 0 front) 7
      (if data = [] then 4 else data.length)) :
    ∃ rx', Absorbs rx data rx' ∧
      Filled rx' .crc (base.store 0 (front ++ data)) (7 + data.length) 4 := by
  rcases List.eq_nil_or_concat data with rfl | ⟨init, last, rfl⟩
  · exact ⟨rx, .nil, by simpa using h⟩
  · simp only [List.concat_eq_append, List.append_eq_nil_iff, List.cons_ne_self, and_false,
      if_false, List.length_append, List.length_singleton] at h hlen ⊢
    obtain ⟨rx', habsorbs, hfilled⟩ := h.absorbs (.inr (.inl rfl)) init rfl
      (by omega)
    have hpushed := hfilled.push (by omega) last
    rw [store_buffered _ _ _ hfront, store_buffered _ _ _ (by simp [hfront]),
      List.append_assoc] at hpushed
    have hfeed : rx'.feed last = ({ rx'.push last with
        expected := UInt32.ofNat frameCrcSize, state := .crc }, .pending) := by
      unfold Receiver.feed
      rw [hfilled.state]
      simp only [hpushed.expected_zero, if_true]
    refine ⟨(rx'.feed last).1, habsorbs.append (.cons (by rw [hfeed]) .nil), ?_⟩
    rw [hfeed]
    exact ⟨rfl, hpushed.frame, by simpa [Nat.add_assoc] using hpushed.index, rfl⟩

/-- A complete buffered frame is judged by its CRC. -/
theorem complete_buffered {base : Memory UInt8} (hlen : len.toNat = data.length) (crc : UInt32)
    (h : HeaderIn cmd seq rx.frame base len (data ++ bytes32 crc)) :
    rx.complete =
      if crc32Compute (headerBytes cmd seq len ++ data) = crc then .frame cmd seq data
      else .badCrc seq := by
  set cells := [frameMagic0, frameMagic1] ++ headerBytes cmd seq len ++ (data ++ bytes32 crc)
    with hcells
  have hlength : cells.length = 11 + data.length := by
    simp [hcells]
    omega
  obtain ⟨hcmd, hlenField, hseq⟩ := h.fields
  -- the buffer is read back as it was filled
  have hread (i count : Nat) (hi : i + count ≤ cells.length) :
      rx.frame.read i count = (cells.drop i).take count := by
    rw [h, ← Memory.read_store_within base 0 cells hi, Nat.zero_add]
  have hcell (i : Nat) (hi : i < cells.length) : rx.frame i = cells[i] := by
    rw [h, ← Memory.store_apply_of_mem base 0 cells i hi, Nat.zero_add]
  have hcovered : rx.frame.read frameOffCmd (frameHeaderSize - frameOffCmd + data.length) =
      headerBytes cmd seq len ++ data := by
    have hcount : frameHeaderSize - frameOffCmd + data.length =
        (headerBytes cmd seq len ++ data).length := by
      simp [frameHeaderSize, frameOffCmd]
    rw [hread _ _ (by rw [hlength]; simp [frameHeaderSize, frameOffCmd]; omega), hcount]
    simp [hcells, frameOffCmd, ← List.append_assoc]
  have hdata : rx.frame.read frameOffData data.length = data := by
    rw [hread _ _ (by rw [hlength, frameOffData]; omega)]
    simp [hcells, headerBytes, frameOffData, bytes16]
  have hreceived : rx.receivedCrc = crc := by
    have hbyte (i : Nat) (byte : UInt8) (hget : (bytes32 crc)[i]? = some byte) :
        rx.frame (frameHeaderSize + data.length + i) = byte := by
      obtain ⟨hi, -⟩ := List.getElem?_eq_some_iff.mp hget
      have hi : i < 4 := hi
      have hlt : frameHeaderSize + data.length + i < cells.length := by
        rw [hlength, frameHeaderSize]
        omega
      have hsome : cells[frameHeaderSize + data.length + i]? = some byte := by
        rw [hcells, ← List.append_assoc,
          List.getElem?_append_right (by simp [frameHeaderSize]; omega), ← hget]
        congr 1
        simp only [List.length_append, List.length_cons, List.length_nil, length_headerBytes,
          frameHeaderSize]
        omega
      rw [hcell _ hlt, ← List.getElem?_eq_some_iff.mp hsome |>.2]
    rw [Receiver.receivedCrc, hlenField, hlen]
    change word32 (rx.frame (frameHeaderSize + data.length + 0)) _ _ _ = crc
    rw [hbyte 0 _ rfl, hbyte 1 _ rfl, hbyte 2 _ rfl, hbyte 3 _ rfl]
    exact word32_bytes crc
  unfold Receiver.complete
  simp only [hlenField, hlen, hcovered, hreceived, hcmd, hseq, hdata]

/-- What follows the magic of a frame completes it with its last byte. -/
theorem feed_body {base : Memory UInt8} (hlen : len.toNat = data.length)
    (hshort : data.length ≤ 1024) (crc : UInt32)
    (h : Filled rx .header (base.store 0 [frameMagic0, frameMagic1]) 2 5) :
    ∃ front last rx' rx'', headerBytes cmd seq len ++ (data ++ bytes32 crc) = front ++ [last] ∧
      Absorbs rx front rx' ∧
      rx'.feed last = (rx'',
        if crc32Compute (headerBytes cmd seq len ++ data) = crc then .frame cmd seq data
        else .badCrc seq) ∧
      rx''.state = .magic0 := by
  obtain ⟨rx₄, habsorbs₄, hstate₄, hpushed₄⟩ := absorbs_header cmd seq len h
  obtain ⟨hpending, hfilled₅⟩ := filled_after_header cmd seq hstate₄ hlen hshort hpushed₄
  obtain ⟨rx₈, habsorbs₈, hfilled₈⟩ := absorbs_payload (by rfl) hshort hfilled₅
  obtain ⟨rx', habsorbs', hfilled'⟩ := hfilled₈.absorbs (.inr (.inr rfl))
    [crc.toUInt8, (crc >>> 8).toUInt8, (crc >>> 16).toUInt8] rfl (by simp; omega)
  -- only the last byte of the CRC completes anything
  have hpushed := hfilled'.push (by simp; omega) (crc >>> 24).toUInt8
  have hframe : HeaderIn cmd seq (rx'.push (crc >>> 24).toUInt8).frame base len
      (data ++ bytes32 crc) := by
    rw [HeaderIn, hpushed.frame, store_buffered _ _ _ (by simp; omega),
      store_buffered _ _ _ (by simp; omega)]
    simp [bytes32]
  have hfeed : rx'.feed (crc >>> 24).toUInt8 = ((rx'.push (crc >>> 24).toUInt8).reset,
      (rx'.push (crc >>> 24).toUInt8).complete) := by
    unfold Receiver.feed
    rw [hfilled'.state]
    simp only [hpushed.expected_zero, if_true]
  rw [complete_buffered cmd seq hlen crc hframe] at hfeed
  have habsorbs₅ := habsorbs₄.append (.cons hpending .nil)
  exact ⟨_, _, rx', _, by simp [headerBytes, bytes16, bytes32],
    (habsorbs₅.append habsorbs₈).append habsorbs', hfeed, rfl⟩

/-- With its last byte a frame is dispatched as it was sent. -/
theorem feed_sendFrame (h : rx.Hunting) (hlen : data.length ≤ 1024) :
    ∃ front last rx' rx'', sendFrame cmd seq data = front ++ [last] ∧ Absorbs rx front rx' ∧
      rx'.feed last = (rx'', .frame cmd seq data) ∧ rx''.state = .magic0 := by
  obtain ⟨rx₂, habsorbs₂, hfilled₂⟩ := absorbs_magic h
  obtain ⟨front, last, rx', rx'', hframe, habsorbs, hfeed, hstate⟩ := feed_body cmd seq
    (toNat_length_field hlen) hlen (crc32Compute (covered cmd seq data)) hfilled₂
  refine ⟨_, last, rx', rx'', ?_, habsorbs₂.append habsorbs, ?_, hstate⟩
  · rw [sendFrame_eq, List.append_assoc, ← hframe, covered, header, headerBytes]
    simp only [List.append_assoc]
  · rw [hfeed]
    exact congrArg _ (if_pos rfl)

end Frame

end Receiver

/-! ## Draining -/

/-- Bytes in the middle of a frame are drained before the rest. -/
theorem drain_absorbs {p : Protocol} {rx : Receiver} {bytes : List UInt8} (more : List UInt8)
    {budget : Nat} (received : Bool) (h : p.rx.Absorbs bytes rx)
    (hbudget : bytes.length ≤ budget) :
    p.drain budget received (bytes ++ more) =
      ({ p with rx } : Protocol).drain (budget - bytes.length) (received || !bytes.isEmpty)
        more := by
  induction bytes generalizing p budget received with
  | nil =>
      cases h
      rw [List.isEmpty_nil, Bool.not_true, Bool.or_false]
      rfl
  | cons byte bytes ih =>
      obtain ⟨budget, rfl⟩ : ∃ rest, budget = rest + 1 :=
        ⟨budget - 1, by simp only [List.length_cons] at hbudget; omega⟩
      simp only [List.length_cons, Nat.add_le_add_iff_right] at hbudget
      cases h with
      | cons hpending hrest =>
          have hfeed : p.feed byte = pure { p with rx := (p.rx.feed byte).1 } := by
            rw [Protocol.feed, hpending]
            rfl
          change (p.feed byte >>= fun p => p.drain budget true (bytes ++ more)) = _
          rw [hfeed]
          refine (ih true hrest hbudget).trans ?_
          rw [List.length_cons, Nat.add_sub_add_right, List.isEmpty_cons, Bool.true_or,
            Bool.not_false, Bool.or_true]

/-! ## Carrying out a command -/

section Calm

variable {before : Flash} {p : Protocol} {a : Action}

/-- Without faults an action that is ready is performed. -/
theorem Acts.run_calm {x : FlashM Protocol} (h : Acts .calm before p a x)
    (hready : a.Ready before p.toTransfer) :
    ∃ p' w, x.run ⟨before, [], []⟩ = (.done p', w) ∧ w.state = a.image before p.toTransfer ∧
      p'.toTransfer = a.success before p.toTransfer ∧ p'.rx = p.rx ∧
      (∀ seq, a.acks = some seq → p'.tx = p.tx ++ sendFrame rspAck seq []) ∧
      p'.timeoutMs = a.timeoutMs p.timeoutMs := by
  have hallowed : a.Allowed before p.toTransfer .calm := by
    cases a with
    | answer | abort => trivial
    | start | store | finish => exact ⟨by intros; trivial, trivial⟩
  obtain ⟨p', ⟨state, faults, calls⟩, hrun, heffect⟩ := (h hallowed).run_calm
  cases heffect with
  | performed htransfer hrx htx htimeout =>
      exact ⟨p', _, hrun, rfl, htransfer, hrx, htx, htimeout⟩
  | failed _ hfailed => exact absurd hready (hfailed Climate.calm_reportsNoError)

end Calm

/-! ## In update mode -/

/-- The bytes of a frame, with no fault while they are acted on. -/
def frameEvents (cmd : UInt8) (seq : UInt16) (data : List UInt8) : List Event :=
  (sendFrame cmd seq data).map (Event.byte · [])

/-- A session in the middle of a drain. -/
def Session.draining (u : Session) (proto : Protocol) (nowMs : UInt32) (budget : Nat)
    (received : Bool) : Session :=
  { u with proto, drain := some (nowMs, budget, received) }

namespace Board

variable {flash : Flash} {u : Session} {proto : Protocol} {nowMs : UInt32} {budget : Nat}
  {received : Bool}

theorem step_byte_pending {byte : UInt8} (hpending : (proto.rx.feed byte).2 = .pending) :
    step ⟨flash, .update (u.draining proto nowMs (budget + 1) received)⟩ (.byte byte []) =
      ⟨flash,
        .update (u.draining { proto with rx := (proto.rx.feed byte).1 } nowMs budget true)⟩ := by
  change settle _ ((proto.feed byte).run ⟨flash, [], []⟩) = _
  rw [Protocol.feed, hpending]
  rfl

variable (flash u nowMs received) in
/-- Bytes that complete nothing are drained. -/
theorem run_absorbed {bytes : List UInt8} {rx' : Receiver} (hbytes : bytes ≠ [])
    (h : proto.rx.Absorbs bytes rx') (hbudget : bytes.length ≤ budget) :
    run ⟨flash, .update (u.draining proto nowMs budget received)⟩ (bytes.map (Event.byte · [])) =
      ⟨flash,
        .update (u.draining { proto with rx := rx' } nowMs (budget - bytes.length) true)⟩ := by
  induction bytes generalizing proto budget received with
  | nil => exact absurd rfl hbytes
  | cons byte bytes ih =>
      obtain ⟨budget, rfl⟩ : ∃ rest, budget = rest + 1 :=
        ⟨budget - 1, by simp only [List.length_cons] at hbudget; omega⟩
      cases h with
      | cons hpending hrest =>
          rw [List.map_cons, run_cons, step_byte_pending hpending]
          rw [List.length_cons, Nat.add_sub_add_right]
          simp only [List.length_cons, Nat.add_le_add_iff_right] at hbudget
          cases bytes with
          | nil =>
              cases hrest
              rfl
          | cons next bytes =>
              exact ih true nofun hrest hbudget

variable (flash u nowMs budget received) in
/-- A byte whose action is ready is carried out. -/
theorem step_byte_ready {byte : UInt8} (hb : proto.Bounded)
    (hready : (proto.byteAction flash byte).Ready flash proto.toTransfer) :
    ∃ proto', step ⟨flash, .update (u.draining proto nowMs (budget + 1) received)⟩
        (.byte byte []) =
        ⟨(proto.byteAction flash byte).image flash proto.toTransfer,
          .update (u.draining proto' nowMs budget true)⟩ ∧
      proto'.toTransfer = (proto.byteAction flash byte).success flash proto.toTransfer ∧
      proto'.rx = (proto.rx.feed byte).1 := by
  have hacts : Acts .calm flash _ _ _ := feed_acts hb byte
  obtain ⟨proto', w, hrun, hstate, htransfer, hrx, -⟩ := hacts.run_calm hready
  refine ⟨proto', ?_, htransfer, hrx⟩
  change settle _ ((proto.feed byte).run ⟨flash, [], []⟩) = _
  rw [hrun, ← hstate]
  rfl

variable (flash u nowMs received) in
/-- A frame is its last byte, which is acted on, after bytes that are not. -/
theorem run_frame_front (cmd : UInt8) (seq : UInt16) (data : List UInt8)
    (hhunting : proto.rx.Hunting) (hlen : data.length ≤ 1024)
    (hbudget : 11 + data.length ≤ budget) :
    ∃ front last rx, frameEvents cmd seq data = front.map (Event.byte · []) ++ [.byte last []] ∧
      proto.rx.Absorbs front rx ∧
      run ⟨flash, .update (u.draining proto nowMs budget received)⟩ (front.map (Event.byte · [])) =
        ⟨flash, .update (u.draining { proto with rx } nowMs (budget - (11 + data.length) + 1)
          true)⟩ ∧
      ({ proto with rx } : Protocol).byteAction flash last =
        proto.toTransfer.action flash cmd seq data ∧
      (rx.feed last).1.state = .magic0 ∧ (rx.feed last).2 = .frame cmd seq data := by
  obtain ⟨front, last, rx, rx', hframe, habsorbs, hlast, hhunting'⟩ :=
    Receiver.feed_sendFrame cmd seq hhunting hlen
  have hlength : front.length + 1 = 11 + data.length := by
    rw [← Receiver.length_sendFrame cmd seq, hframe, List.length_append, List.length_singleton]
  have hnonempty : front ≠ [] := by
    rintro rfl
    rw [List.length_nil] at hlength
    omega
  have hrun := run_absorbed flash u nowMs received hnonempty habsorbs
    (by omega : front.length ≤ budget)
  rw [show budget - front.length = budget - (11 + data.length) + 1 by omega] at hrun
  refine ⟨front, last, rx, by rw [frameEvents, hframe, List.map_append]; rfl, habsorbs, hrun, ?_,
    by rw [hlast]; exact hhunting', by rw [hlast]⟩
  simp only [Protocol.byteAction, hlast]

variable (flash u nowMs received) in
/-- A frame that arrives in one drain is carried out. -/
theorem run_frame (cmd : UInt8) (seq : UInt16) (data : List UInt8)
    (hhunting : proto.rx.Hunting) (hlen : data.length ≤ 1024)
    (hbudget : 11 + data.length ≤ budget) (hb : proto.Bounded)
    (hready : (proto.toTransfer.action flash cmd seq data).Ready flash proto.toTransfer) :
    ∃ proto', run ⟨flash, .update (u.draining proto nowMs budget received)⟩
        (frameEvents cmd seq data) =
        ⟨(proto.toTransfer.action flash cmd seq data).image flash proto.toTransfer,
          .update (u.draining proto' nowMs (budget - (11 + data.length)) true)⟩ ∧
      proto'.toTransfer =
        (proto.toTransfer.action flash cmd seq data).success flash proto.toTransfer ∧
      proto'.rx.state = .magic0 := by
  obtain ⟨front, last, rx, hframe, -, hfront, haction, hhunting', -⟩ :=
    run_frame_front flash u nowMs received cmd seq data hhunting hlen hbudget
  rw [← haction] at hready ⊢
  have hb' : ({ proto with rx } : Protocol).Bounded := hb
  obtain ⟨proto', hstep, htransfer, hrx⟩ :=
    step_byte_ready flash u nowMs (budget - (11 + data.length)) true hb' hready
  refine ⟨proto', ?_, htransfer, by rw [hrx]; exact hhunting'⟩
  rw [hframe, run_append, hfront]
  exact hstep

/-! ## Guards along a frame -/

/-- A guard that bytes in the middle of a frame pass. -/
def PassesPending (guard : Board → Event → Prop) (flash : Flash) (u : Session) (nowMs : UInt32)
    (t : Transfer) : Prop :=
  ∀ (proto : Protocol) (budget : Nat) (received : Bool) (byte : UInt8), proto.toTransfer = t →
    (proto.rx.feed byte).2 = .pending →
    guard ⟨flash, .update (u.draining proto nowMs (budget + 1) received)⟩ (.byte byte [])

theorem guarded_absorbed {guard : Board → Event → Prop} {bytes : List UInt8} {rx' : Receiver}
    (hpass : PassesPending guard flash u nowMs proto.toTransfer)
    (h : proto.rx.Absorbs bytes rx') (hbudget : bytes.length ≤ budget) :
    Transition.Guarded step guard ⟨flash, .update (u.draining proto nowMs budget received)⟩
      (bytes.map (Event.byte · [])) := by
  induction bytes generalizing proto budget received with
  | nil => trivial
  | cons byte bytes ih =>
      obtain ⟨budget, rfl⟩ : ∃ rest, budget = rest + 1 :=
        ⟨budget - 1, by simp only [List.length_cons] at hbudget; omega⟩
      simp only [List.length_cons, Nat.add_le_add_iff_right] at hbudget
      cases h with
      | cons hpending hrest =>
          refine ⟨hpass proto budget received byte rfl hpending, ?_⟩
          rw [step_byte_pending hpending]
          exact ih hpass hrest hbudget

/-- A guard that is passed in the middle of a frame and at its end is passed
throughout it. -/
theorem guarded_frame {guard : Board → Event → Prop} (cmd : UInt8) (seq : UInt16)
    (data : List UInt8) (hhunting : proto.rx.Hunting) (hlen : data.length ≤ 1024)
    (hbudget : 11 + data.length ≤ budget)
    (hpass : PassesPending guard flash u nowMs proto.toTransfer)
    (hlast : ∀ rx byte, ({ proto with rx } : Protocol).byteAction flash byte =
        proto.toTransfer.action flash cmd seq data →
      guard ⟨flash, .update (u.draining { proto with rx } nowMs (budget - (11 + data.length) + 1)
        true)⟩ (.byte byte [])) :
    Transition.Guarded step guard ⟨flash, .update (u.draining proto nowMs budget received)⟩
      (frameEvents cmd seq data) := by
  obtain ⟨front, last, rx, hframe, habsorbs, hfront, haction, -⟩ :=
    run_frame_front flash u nowMs received cmd seq data hhunting hlen hbudget
  have hlength : front.length ≤ budget := by
    have hboth := congrArg List.length hframe
    rw [frameEvents, List.length_map, Receiver.length_sendFrame, List.length_append,
      List.length_map, List.length_singleton] at hboth
    omega
  rw [hframe, Transition.guarded_append]
  refine ⟨guarded_absorbed hpass habsorbs hlength, ?_, trivial⟩
  rw [run] at hfront
  rw [hfront]
  exact hlast rx last haction

end Board

end OtaBoot
