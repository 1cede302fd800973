import OtaBoot.Undisturbed

/-!
# Frames on the host

`tools/protocol.py` and `tools/crc32.py`, with Python's integers as natural
numbers and its exceptions as errors. The two sides were written apart; here
they are shown to agree: a frame that the host encodes is the one that the
firmware would send, and the host decodes what the firmware sends.
-/

namespace OtaBoot.Host

open LittleEndian

/-- The exceptions of `protocol.py` and `transport.py`, and `struct.error`. -/
inductive HostError where
  | badMagic
  | badCrc
  | badLength
  | incomplete
  | transport
  | timeout
  | disconnected
  | structError
  deriving DecidableEq, Repr

/-! ## CRC -/

def poly : Nat := 0x04C11DB7
def init : Nat := 0xFFFFFFFF

/-- `_reverse_byte`. -/
def reverseByte (b : Nat) : Nat :=
  let b := ((b &&& 0xF0) >>> 4) ||| ((b &&& 0x0F) <<< 4)
  let b := ((b &&& 0xCC) >>> 2) ||| ((b &&& 0x33) <<< 2)
  ((b &&& 0xAA) >>> 1) ||| ((b &&& 0x55) <<< 1)

/-- The inner loop of `crc32_stm32`. -/
def crcBit (crc : Nat) : Nat :=
  if crc &&& 0x80000000 ≠ 0 then ((crc <<< 1) ^^^ poly) &&& 0xFFFFFFFF
  else (crc <<< 1) &&& 0xFFFFFFFF

def crc32Stm32 (data : List UInt8) : Nat :=
  data.foldl (fun crc byte => Nat.repeat crcBit 8 (crc ^^^ (reverseByte byte.toNat <<< 24))) init

/-! ## Frames -/

def protoVersion : Nat := 1

def magic : List UInt8 := [0xAA, 0x55]

def frameHeaderSize : Nat := 7
def frameCrcSize : Nat := 4
def frameOverhead : Nat := frameHeaderSize + frameCrcSize

def dataBlockSize : Nat := 256
def maxPayloadSize : Nat := 1024

def cmdGetInfo : Nat := 0x01
def cmdStartUpdate : Nat := 0x02
def cmdData : Nat := 0x03
def cmdEndUpdate : Nat := 0x04
def cmdAbort : Nat := 0x05

def rspInfo : Nat := 0x81
def rspAck : Nat := 0x82
def rspNack : Nat := 0x83

/-- One unsigned little-endian field of `struct.pack`. -/
def packField (width n : Nat) : Except HostError (List UInt8) :=
  if n < 256 ^ width then .ok ((List.range width).map fun i => UInt8.ofNat (n >>> (8 * i)))
  else .error .structError

/-- One unsigned little-endian field of `struct.unpack`, and `int.from_bytes`. -/
def unpackField (bytes : List UInt8) : Nat := bytes.foldr (fun b n => b.toNat + 256 * n) 0

structure Frame where
  cmd : Nat
  seq : Nat
  data : List UInt8 := []
  deriving DecidableEq, Repr

def encode (frame : Frame) : Except HostError (List UInt8) :=
  if frame.data.length > maxPayloadSize then .error .badLength
  else do
    let cmd ← packField 1 frame.cmd
    let length ← packField 2 frame.data.length
    let seq ← packField 2 frame.seq
    -- the CRC does not cover the magic
    let body := cmd ++ length ++ seq ++ frame.data
    let crc ← packField 4 (crc32Stm32 body)
    pure (magic ++ body ++ crc)

def decode (raw : List UInt8) : Except HostError Frame :=
  if raw.length < frameHeaderSize then .error .incomplete
  else if raw.extract 0 2 ≠ magic then .error .badMagic
  else
    let cmd := (raw.getD 2 0).toNat
    let length := unpackField (raw.extract 3 5)
    let seq := unpackField (raw.extract 5 7)
    if length > maxPayloadSize then .error .badLength
    else
      let total := frameOverhead + length
      if raw.length < total then .error .incomplete
      else
        let data := raw.extract frameHeaderSize (frameHeaderSize + length)
        let crcRecu := unpackField (raw.extract (frameHeaderSize + length) total)
        let crcCalcule := crc32Stm32 (raw.extract 2 (frameHeaderSize + length))
        if crcRecu ≠ crcCalcule then .error .badCrc else .ok ⟨cmd, seq, data⟩

/-! ## Payloads -/

structure StartUpdate where
  fwSize : Nat
  fwCrc32 : Nat
  fwVersion : Nat
  targetSlot : Nat

/-- `struct.pack("<IIIBBH", …)`. -/
def StartUpdate.pack (su : StartUpdate) : Except HostError (List UInt8) := do
  let fwSize ← packField 4 su.fwSize
  let fwCrc32 ← packField 4 su.fwCrc32
  let fwVersion ← packField 4 su.fwVersion
  let targetSlot ← packField 1 su.targetSlot
  let version ← packField 1 protoVersion
  let reserved ← packField 2 0
  pure (fwSize ++ fwCrc32 ++ fwVersion ++ targetSlot ++ version ++ reserved)

/-- The blocks of an image; the last one may be shorter. -/
def splitFirmware (data : List UInt8) (block : Nat := dataBlockSize) : List (List UInt8) :=
  -- range(0, len(data), block)
  (List.range' 0 ((data.length + block - 1) / block) block).map fun offset =>
    data.extract offset (offset + block)

/-! ## The CRC is that of the unit -/

theorem swap_toNat (b high low k : UInt8) (hk : k.toNat < 8) (hlow : low.toNat <<< k.toNat < 256) :
    (((b &&& high) >>> k) ||| ((b &&& low) <<< k)).toNat =
      ((b.toNat &&& high.toNat) >>> k.toNat) ||| ((b.toNat &&& low.toNat) <<< k.toNat) := by
  have hshift : (b.toNat &&& low.toNat) <<< k.toNat < 2 ^ 8 := by
    refine Nat.lt_of_le_of_lt ?_ hlow
    rw [Nat.shiftLeft_eq, Nat.shiftLeft_eq]
    exact Nat.mul_le_mul_right _ Nat.and_le_right
  rw [UInt8.toNat_or, UInt8.toNat_shiftRight, UInt8.toNat_shiftLeft, UInt8.toNat_and,
    UInt8.toNat_and, Nat.mod_eq_of_lt hk, Nat.mod_eq_of_lt hshift]

theorem reverseByte_toNat (b : UInt8) :
    reverseByte b.toNat = (OtaBoot.reverseByte b).toNat := by
  unfold OtaBoot.reverseByte
  dsimp only
  rw [swap_toNat _ 0xAA 0x55 1 (by decide) (by decide),
    swap_toNat _ 0xCC 0x33 2 (by decide) (by decide),
    swap_toNat _ 0xF0 0x0F 4 (by decide) (by decide)]
  rfl

theorem crcBit_toNat (crc : UInt32) : crcBit crc.toNat = (crcShift crc).toNat := by
  have hshift : (crc <<< 1).toNat = crc.toNat <<< 1 &&& 0xFFFFFFFF := by
    rw [UInt32.toNat_shiftLeft]
    exact (Nat.and_two_pow_sub_one_eq_mod _ 32).symm
  have hbit : crc.toNat &&& 0x80000000 = 0 ↔ crc &&& 0x80000000 = 0 := by
    rw [← UInt32.toNat_inj, UInt32.toNat_and]
    rfl
  unfold crcBit crcShift
  simp only [ne_eq, hbit]
  split
  · rw [UInt32.toNat_xor, hshift, Nat.and_xor_distrib_right]
    rfl
  · exact hshift.symm

theorem repeat_crcBit (count : Nat) (crc : UInt32) :
    Nat.repeat crcBit count crc.toNat = (Nat.repeat crcShift count crc).toNat := by
  induction count with
  | zero => rfl
  | succ count ih => simp only [Nat.repeat, ih, crcBit_toNat]

theorem crc32Stm32_eq (data : List UInt8) : crc32Stm32 data = (crc32Compute data).toNat := by
  have hbyte (crc : UInt32) (byte : UInt8) :
      crc.toNat ^^^ (reverseByte byte.toNat <<< 24) =
        (crc ^^^ ((OtaBoot.reverseByte byte).toUInt32 <<< 24)).toNat := by
    have hlt := (OtaBoot.reverseByte byte).toNat_lt
    rw [UInt32.toNat_xor, UInt32.toNat_shiftLeft, reverseByte_toNat, UInt8.toNat_toUInt32,
      Nat.mod_eq_of_lt]
    · rfl
    · change _ <<< 24 < _
      rw [Nat.shiftLeft_eq]
      omega
  have hupdate (crc : UInt32) :
      data.foldl (fun crc byte => Nat.repeat crcBit 8 (crc ^^^ (reverseByte byte.toNat <<< 24)))
        crc.toNat = (crc32Update crc data).toNat := by
    induction data generalizing crc with
    | nil => rfl
    | cons byte data ih =>
        rw [List.foldl_cons, hbyte, repeat_crcBit, ih]
        rfl
  exact hupdate crcInitValue

/-! ## Fields -/

theorem packField_one (b : UInt8) : packField 1 b.toNat = .ok [b] := by
  have hlt := b.toNat_lt
  rw [packField, if_pos (by omega)]
  simp

theorem packField_two (w : UInt16) : packField 2 w.toNat = .ok (bytes16 w) := by
  have hlt := w.toNat_lt
  rw [packField, if_pos (by omega)]
  refine congrArg Except.ok ?_
  simp only [bytes16, List.range, List.range.loop, List.map_cons, List.map_nil, List.cons.injEq,
    and_true, ← UInt8.toNat_inj]
  simp

theorem packField_four (w : UInt32) : packField 4 w.toNat = .ok (bytes32 w) := by
  have hlt := w.toNat_lt
  rw [packField, if_pos (by omega)]
  refine congrArg Except.ok ?_
  simp only [bytes32, List.range, List.range.loop, List.map_cons, List.map_nil, List.cons.injEq,
    and_true, ← UInt8.toNat_inj]
  simp

theorem unpackField_bytes16 (w : UInt16) : unpackField (bytes16 w) = w.toNat := by
  have hlt := w.toNat_lt
  simp [unpackField, bytes16, Nat.shiftRight_eq_div_pow]
  omega

theorem unpackField_bytes32 (w : UInt32) : unpackField (bytes32 w) = w.toNat := by
  have hlt := w.toNat_lt
  simp [unpackField, bytes32, Nat.shiftRight_eq_div_pow]
  omega

/-! ## The two sides agree -/

section Agreement

variable (cmd : UInt8) (seq : UInt16) {data : List UInt8}

/-- The host encodes a frame as the firmware does. -/
theorem encode_eq (hlen : data.length ≤ 1024) :
    encode ⟨cmd.toNat, seq.toNat, data⟩ = .ok (sendFrame cmd seq data) := by
  have hlength : packField 2 data.length = .ok (bytes16 (UInt16.ofNat data.length)) := by
    rw [← Receiver.toNat_length_field hlen, packField_two, Receiver.toNat_length_field hlen]
  have hshort : ¬ data.length > maxPayloadSize := by
    change ¬ 1024 < data.length
    omega
  rw [encode, if_neg hshort]
  simp only [packField_one, packField_two, hlength, crc32Stm32_eq, packField_four, bind,
    Except.bind, pure, Except.pure]
  rw [Receiver.sendFrame_eq]
  simp [Receiver.covered, Receiver.header, magic, frameMagic0, frameMagic1]

theorem extract_between (front part back : List UInt8) {start stop : Nat}
    (hstart : start = front.length) (hstop : stop = front.length + part.length) :
    (front ++ (part ++ back)).extract start stop = part := by
  subst hstart hstop
  simp [List.extract_eq_take_drop]

/-- The host judges a frame by its CRC, as the firmware does. -/
theorem decode_body {len : UInt16} (hlen : len.toNat = data.length) (hshort : data.length ≤ 1024)
    (crc : UInt32) :
    decode (magic ++ (Receiver.headerBytes cmd seq len ++ (data ++ bytes32 crc))) =
      if crc32Compute (Receiver.headerBytes cmd seq len ++ data) = crc
      then .ok ⟨cmd.toNat, seq.toNat, data⟩ else .error .badCrc := by
  set raw := magic ++ (Receiver.headerBytes cmd seq len ++ (data ++ bytes32 crc)) with hraw
  -- cut as `decode` cuts it
  have hcells : raw = [0xAA, 0x55, cmd] ++ (bytes16 len ++ (bytes16 seq ++
      (data ++ bytes32 crc))) := by
    rw [hraw]
    simp [Receiver.headerBytes, magic]
  have hlength : raw.length = 11 + data.length := by
    rw [hcells]
    simp
    omega
  have hheader : ¬ raw.length < frameHeaderSize := by
    rw [hlength, frameHeaderSize]
    omega
  have hmagic : ¬ raw.extract 0 2 ≠ magic := by
    rw [hcells, not_not]
    rfl
  have hfield : unpackField (raw.extract 3 5) = data.length := by
    have hbytes : raw.extract 3 5 = bytes16 len := by
      rw [hcells]
      exact extract_between _ _ _ rfl rfl
    rw [hbytes, unpackField_bytes16, hlen]
  have hseq : unpackField (raw.extract 5 7) = seq.toNat := by
    have hbytes : raw.extract 5 7 = bytes16 seq := by
      rw [hcells, ← List.append_assoc]
      exact extract_between _ _ _ rfl rfl
    rw [hbytes, unpackField_bytes16]
  have hbound : ¬ data.length > maxPayloadSize := by
    change ¬ 1024 < data.length
    omega
  have htotal : ¬ raw.length < frameOverhead + data.length := by
    rw [hlength]
    exact Nat.lt_irrefl _
  have hdata : raw.extract frameHeaderSize (frameHeaderSize + data.length) = data := by
    rw [hcells, ← List.append_assoc, ← List.append_assoc]
    exact extract_between _ _ _ rfl rfl
  have hcovered : raw.extract 2 (frameHeaderSize + data.length) =
      Receiver.headerBytes cmd seq len ++ data := by
    rw [hraw, ← List.append_assoc (Receiver.headerBytes cmd seq len)]
    refine extract_between _ _ _ rfl ?_
    rw [List.length_append, Receiver.length_headerBytes, frameHeaderSize]
    change 7 + data.length = 2 + (5 + data.length)
    omega
  have hreceived : raw.extract (frameHeaderSize + data.length) (frameOverhead + data.length) =
      bytes32 crc := by
    rw [hraw, ← List.append_assoc, ← List.append_assoc, ← List.append_nil (bytes32 crc)]
    refine extract_between _ _ _ ?_ ?_
    · rw [List.length_append, List.length_append, Receiver.length_headerBytes, frameHeaderSize]
      rfl
    · rw [List.length_append, List.length_append, Receiver.length_headerBytes]
      change 11 + data.length = 2 + 5 + data.length + 4
      omega
  have hcmd : raw.getD 2 0 = cmd := by
    rw [hcells]
    rfl
  have hequal : (crc.toNat ≠ (crc32Compute (Receiver.headerBytes cmd seq len ++ data)).toNat) ↔
      ¬ crc32Compute (Receiver.headerBytes cmd seq len ++ data) = crc := by
    rw [ne_eq, UInt32.toNat_inj, eq_comm]
  simp only [decode, hheader, hmagic, hfield, hseq, hbound, htotal, hdata, hcovered, hreceived,
    if_false, crc32Stm32_eq, unpackField_bytes32, hcmd, hequal, ite_not]

/-- The host decodes what the firmware sends. -/
theorem decode_sendFrame (hlen : data.length ≤ 1024) :
    decode (sendFrame cmd seq data) = .ok ⟨cmd.toNat, seq.toNat, data⟩ := by
  rw [Receiver.sendFrame_eq, Receiver.covered, List.append_assoc]
  refine (decode_body cmd seq (Receiver.toNat_length_field hlen) hlen _).trans ?_
  exact if_pos rfl

/-- Frames are told apart by any of their fields. -/
theorem sendFrame_inj {cmd cmd' : UInt8} {seq seq' : UInt16} {data data' : List UInt8}
    (hlen : data.length ≤ 1024) (hlen' : data'.length ≤ 1024)
    (h : sendFrame cmd seq data = sendFrame cmd' seq' data') :
    cmd = cmd' ∧ seq = seq' ∧ data = data' := by
  have hdecoded := decode_sendFrame cmd seq hlen
  rw [h, decode_sendFrame cmd' seq' hlen', Except.ok.injEq, Frame.mk.injEq, UInt8.toNat_inj,
    UInt16.toNat_inj] at hdecoded
  exact ⟨hdecoded.1.symm, hdecoded.2.1.symm, hdecoded.2.2.symm⟩

end Agreement

/-- The payload of START_UPDATE is the one that the firmware reads. -/
theorem StartUpdate.pack_eq (size crc ver : UInt32) (slot : Slot) :
    StartUpdate.pack ⟨size.toNat, crc.toNat, ver.toNat, slot.toByte.toNat⟩ =
      .ok (startPayload size crc ver slot) := by
  have hversion : packField 1 protoVersion = .ok [OtaBoot.protoVersion] := packField_one 1
  have hreserved : packField 2 0 = .ok [0, 0] := packField_two 0
  simp only [StartUpdate.pack, packField_four, packField_one, hversion, hreserved, bind,
    Except.bind, pure, Except.pure]
  simp [startPayload]

/-! ## Blocks -/

section Blocks

variable {data : List UInt8}

@[simp] theorem splitFirmware_nil : splitFirmware [] = [] := rfl

/-- The first block, and the blocks of the rest. -/
theorem splitFirmware_cons (h : data ≠ []) :
    splitFirmware data = data.take 256 :: splitFirmware (data.drop 256) := by
  have hpos := List.length_pos_iff.mpr h
  have hcount : (data.length + dataBlockSize - 1) / dataBlockSize =
      ((data.drop 256).length + dataBlockSize - 1) / dataBlockSize + 1 := by
    rw [List.length_drop, dataBlockSize]
    omega
  have hshift (count : Nat) :
      List.range' 256 count 256 = (List.range' 0 count 256).map (256 + ·) := by
    rw [List.map_add_range']
  unfold splitFirmware
  rw [hcount, List.range'_succ, List.map_cons, dataBlockSize, Nat.zero_add, hshift, List.map_map]
  refine congrArg₂ _ ?_ (List.map_congr_left fun offset _ => ?_)
  · simp [List.extract_eq_take_drop]
  · simp [List.extract_eq_take_drop]

theorem length_splitFirmware (data : List UInt8) :
    (splitFirmware data).length = (data.length + 255) / 256 := by
  simp [splitFirmware, dataBlockSize]

end Blocks

end OtaBoot.Host
