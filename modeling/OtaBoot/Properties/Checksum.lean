import OtaBoot.Foundation.ShiftRegister
import OtaBoot.Host.Faults
import OtaBoot.Properties.Framing

/-!
# What the checksum is, and what it catches

Fed the bits of its bytes in wire order, least significant first, the CRC unit is
a shift register. So it is the mirror image of the standard CRC-32, which is
computed in the other bit order, and it catches every change within 32
consecutive bits of the wire.
-/

namespace OtaBoot

open Storage LittleEndian ShiftRegister

/-! ## The unit as a shift register -/

section Register

/-- The bits of a byte in wire order. -/
def wireByte (byte : UInt8) : List Bool := (List.range 8).map byte.toBitVec.getLsbD

/-- The bits of bytes in wire order. -/
def wireBits (data : List UInt8) : List Bool := data.flatMap wireByte

@[simp] theorem length_wireByte (byte : UInt8) : (wireByte byte).length = 8 := by
  simp [wireByte]

@[simp] theorem wireBits_nil : wireBits [] = [] := rfl

@[simp] theorem wireBits_cons (byte : UInt8) (data : List UInt8) :
    wireBits (byte :: data) = wireByte byte ++ wireBits data := rfl

theorem wireBits_append (front back : List UInt8) :
    wireBits (front ++ back) = wireBits front ++ wireBits back :=
  List.flatMap_append

@[simp] theorem length_wireBits (data : List UInt8) :
    (wireBits data).length = 8 * data.length := by
  induction data with
  | nil => rfl
  | cons byte data ih =>
      rw [wireBits_cons, List.length_append, length_wireByte, ih, List.length_cons]
      omega

theorem getD_wireByte (byte : UInt8) (i : Nat) :
    (wireByte byte).getD i false = byte.toBitVec.getLsbD i := by
  by_cases hi : i < 8
  · simp [wireByte, hi]
  · rw [BitVec.getLsbD_of_ge _ _ (Nat.not_lt.mp hi)]
    simp [wireByte, hi]

/-- Bytes are told apart by their bits. -/
theorem wireByte_injective : Function.Injective wireByte := by
  intro b c h
  apply UInt8.toBitVec_inj.mp
  apply BitVec.eq_of_getLsbD_eq
  intro i _
  rw [← getD_wireByte, ← getD_wireByte, h]

theorem wireBits_injective {a b : List UInt8} (hlen : a.length = b.length)
    (h : wireBits a = wireBits b) : a = b := by
  induction a generalizing b with
  | nil => exact (List.length_eq_zero_iff.mp hlen.symm).symm
  | cons x a ih =>
      obtain ⟨y, b, rfl⟩ := List.exists_cons_of_length_eq_add_one hlen.symm
      obtain ⟨hbyte, hrest⟩ := List.append_inj h (by simp)
      rw [wireByte_injective hbyte, ih (Nat.succ.inj hlen) hrest]

theorem reverseByte_toBitVec (byte : UInt8) :
    (reverseByte byte).toBitVec = byte.toBitVec.reverse := by
  have h : ∀ n : Fin 256, (reverseByte (UInt8.ofFin n)).toBitVec = (BitVec.ofFin n).reverse := by
    decide +kernel
  exact h byte.toFin

/-- What is added to the register is the word of the byte's bits. -/
theorem word_wireByte (byte : UInt8) :
    (word (wireByte byte) : BitVec 32) = ((reverseByte byte).toUInt32 <<< 24).toBitVec := by
  have hshift : ((reverseByte byte).toUInt32 <<< 24).toBitVec =
      byte.toBitVec.reverse.setWidth 32 <<< 24 := by
    rw [← reverseByte_toBitVec]
    rfl
  apply BitVec.eq_of_getMsbD_eq
  intro i hi
  rw [getMsbD_word _ hi, getD_wireByte, hshift, BitVec.getMsbD_shiftLeft, BitVec.getMsbD_setWidth]
  simp [BitVec.getMsbD_reverse]

/-- The test of one bit. -/
theorem and_mask_ne_zero {mask : UInt32} {place : Nat} (hplace : place < 32)
    (hmask : mask.toBitVec = BitVec.twoPow 32 place) (crc : UInt32) :
    crc &&& mask ≠ 0 ↔ crc.toBitVec.getLsbD place = true := by
  have hone : BitVec.twoPow 32 place ≠ 0#32 := by
    intro h
    have hbit := congrArg (fun v => BitVec.getLsbD v place) h
    simp [hplace] at hbit
  rw [ne_eq, ← UInt32.toBitVec_inj, UInt32.toBitVec_and, hmask, BitVec.and_twoPow]
  split
  next hset => simp [hset, hone]
  next hclear => simp [hclear]

theorem crcShift_toBitVec (crc : UInt32) :
    (crcShift crc).toBitVec = clock crcPolynomial.toBitVec crc.toBitVec := by
  have hbit : (crc &&& 0x80000000 ≠ 0) ↔ crc.toBitVec.msb = true := by
    rw [BitVec.msb_eq_getLsbD_last]
    exact and_mask_ne_zero (show 31 < 32 by decide) rfl crc
  simp only [crcShift, clock, hbit]
  split
  · rfl
  · rfl

theorem crcByte_toBitVec (crc : UInt32) (byte : UInt8) :
    (crcByte crc byte).toBitVec = feed crcPolynomial.toBitVec crc.toBitVec (wireByte byte) := by
  have hrepeat (count : Nat) (crc : UInt32) : (Nat.repeat crcShift count crc).toBitVec =
      (clock crcPolynomial.toBitVec)^[count] crc.toBitVec := by
    induction count with
    | zero => rfl
    | succ count ih => rw [Nat.repeat, crcShift_toBitVec, ih, Function.iterate_succ_apply']
  rw [feed_eq_iterate _ (show (wireByte byte).length ≤ 32 by simp), word_wireByte, length_wireByte]
  exact hrepeat 8 _

/-- The unit takes in the bits of its bytes in wire order. -/
theorem crc32Update_toBitVec (crc : UInt32) (data : List UInt8) :
    (crc32Update crc data).toBitVec =
      feed crcPolynomial.toBitVec crc.toBitVec (wireBits data) := by
  induction data generalizing crc with
  | nil => rfl
  | cons byte data ih =>
      rw [wireBits_cons, feed_append, ← crcByte_toBitVec, ← ih]
      rfl

end Register

/-! ## The standard CRC-32 -/

section Standard

def zlibPolynomial : UInt32 := 0xEDB88320

/-- One bit of the standard algorithm, which shifts to the right. -/
def zlibShift (crc : UInt32) : UInt32 :=
  if crc &&& 1 ≠ 0 then (crc >>> 1) ^^^ zlibPolynomial else crc >>> 1

def zlibByte (crc : UInt32) (byte : UInt8) : UInt32 :=
  Nat.repeat zlibShift 8 (crc ^^^ byte.toUInt32)

/-- `zlib.crc32`. -/
def zlibCrc32 (data : List UInt8) : UInt32 :=
  data.foldl zlibByte 0xFFFFFFFF ^^^ 0xFFFFFFFF

-- The check value of the standard, for "123456789".
example : zlibCrc32 [0x31, 0x32, 0x33, 0x34, 0x35, 0x36, 0x37, 0x38, 0x39] = 0xCBF43926 := by
  decide +kernel

/-- The bit order of a word reversed. -/
def reverse32 (w : UInt32) : UInt32 := ⟨w.toBitVec.reverse⟩

theorem reverse32_xor (v w : UInt32) : reverse32 (v ^^^ w) = reverse32 v ^^^ reverse32 w :=
  UInt32.toBitVec_inj.mp (reverse_xor v.toBitVec w.toBitVec)

/-- A byte in the top place is mirrored into the bottom place. -/
theorem reverse32_byte (byte : UInt8) :
    reverse32 ((reverseByte byte).toUInt32 <<< 24) = byte.toUInt32 := by
  apply UInt32.toBitVec_inj.mp
  apply BitVec.eq_of_getLsbD_eq
  intro i hi
  change ((reverseByte byte).toUInt32 <<< 24).toBitVec.reverse.getLsbD i = _
  rw [BitVec.getLsbD_reverse, ← word_wireByte, getMsbD_word _ hi, getD_wireByte]
  simp [hi]

theorem reverse32_crcShift (crc : UInt32) :
    reverse32 (crcShift crc) = zlibShift (reverse32 crc) := by
  have hbit : (reverse32 crc &&& 1 ≠ 0) ↔ crc.toBitVec.reverse.getLsbD 0 = true :=
    and_mask_ne_zero (show 0 < 32 by decide) rfl (reverse32 crc)
  apply UInt32.toBitVec_inj.mp
  change (crcShift crc).toBitVec.reverse = _
  have hpolynomial : crcPolynomial.toBitVec.reverse = zlibPolynomial.toBitVec := by
    decide +kernel
  rw [crcShift_toBitVec, reverse_clock, clockRight, hpolynomial]
  simp only [zlibShift, hbit]
  split
  · rfl
  · rfl

/-- The two algorithms run in step, each on the mirror image of the other's register. -/
theorem reverse32_crcByte (crc : UInt32) (byte : UInt8) :
    reverse32 (crcByte crc byte) = zlibByte (reverse32 crc) byte := by
  have hrepeat (count : Nat) (crc : UInt32) : reverse32 (Nat.repeat crcShift count crc) =
      Nat.repeat zlibShift count (reverse32 crc) := by
    induction count with
    | zero => rfl
    | succ count ih => rw [Nat.repeat, Nat.repeat, reverse32_crcShift, ih]
  rw [crcByte, zlibByte, hrepeat, reverse32_xor, reverse32_byte]

theorem reverse32_crc32Update (crc : UInt32) (data : List UInt8) :
    reverse32 (crc32Update crc data) = data.foldl zlibByte (reverse32 crc) := by
  induction data generalizing crc with
  | nil => rfl
  | cons byte data ih =>
      rw [List.foldl_cons, ← reverse32_crcByte, ← ih]
      rfl

theorem reverse32_reverse32 (w : UInt32) : reverse32 (reverse32 w) = w :=
  UInt32.toBitVec_inj.mp BitVec.reverse_reverse_eq

theorem crc32Compute_eq_zlib (data : List UInt8) :
    crc32Compute data = reverse32 (zlibCrc32 data) ^^^ 0xFFFFFFFF := by
  have hinit : reverse32 crcInitValue = 0xFFFFFFFF := by decide +kernel
  have hfinal : reverse32 0xFFFFFFFF = 0xFFFFFFFF := by decide +kernel
  have hmirror : reverse32 (crc32Compute data) = data.foldl zlibByte 0xFFFFFFFF := by
    rw [crc32Compute, reverse32_crc32Update, hinit]
  rw [zlibCrc32, reverse32_xor, ← hmirror, reverse32_reverse32, hfinal, UInt32.xor_assoc,
    UInt32.xor_self, UInt32.xor_zero]

/-- Updates one after the other are one update. -/
theorem foldl_crc32Update (crc : UInt32) (pieces : List (List UInt8)) :
    pieces.foldl crc32Update crc = crc32Update crc pieces.flatten := by
  induction pieces generalizing crc with
  | nil => rfl
  | cons piece pieces ih =>
      rw [List.foldl_cons, ih, List.flatten_cons, crc32Update_append]

/-- The checksum is that of `zlib` but for the bit order and the final inversion,
and does not depend on how the unit is fed. -/
theorem crc32Stm32_eq_zlib (data : List UInt8) :
    Host.crc32Stm32 data = (reverse32 (zlibCrc32 data) ^^^ 0xFFFFFFFF).toNat ∧
      ∀ (pieces : List (List UInt8)) (crc : UInt32), pieces.flatten = data →
        (crc32Get (pieces.foldl crc32Update (crc32Reset crc))).toNat = Host.crc32Stm32 data := by
  constructor
  · rw [Host.crc32Stm32_eq, crc32Compute_eq_zlib]
  · rintro pieces crc rfl
    rw [Host.crc32Stm32_eq, foldl_crc32Update]
    rfl

/-- "STM32" in three pieces, one of them empty, from whatever the unit held. -/
theorem crc32Stm32_eq_zlib_stm32 :
    Host.crc32Stm32 [0x53, 0x54, 0x4D, 0x33, 0x32] =
        (reverse32 (zlibCrc32 [0x53, 0x54, 0x4D, 0x33, 0x32]) ^^^ 0xFFFFFFFF).toNat ∧
      (crc32Get ([[0x53, 0x54], [], [0x4D, 0x33, 0x32]].foldl crc32Update
        (crc32Reset 0xDEADBEEF))).toNat = Host.crc32Stm32 [0x53, 0x54, 0x4D, 0x33, 0x32] := by
  obtain ⟨hzlib, hpieces⟩ := crc32Stm32_eq_zlib [0x53, 0x54, 0x4D, 0x33, 0x32]
  exact ⟨hzlib, hpieces [[0x53, 0x54], [], [0x4D, 0x33, 0x32]] 0xDEADBEEF rfl⟩

end Standard

/-! ## Bursts -/

section Bursts

/-- Two byte strings of the same length that differ, but only within 32
consecutive bits of the wire. -/
structure Burst (a b : List UInt8) : Prop where
  length : a.length = b.length
  differ : a ≠ b
  within : ∃ start, ∀ i, (wireBits a)[i]? ≠ (wireBits b)[i]? → start ≤ i ∧ i < start + 32

variable {a b front back : List UInt8}

theorem Burst.crc32Update_ne (h : Burst a b) (crc : UInt32) :
    crc32Update crc a ≠ crc32Update crc b := by
  intro hsame
  obtain ⟨start, hwithin⟩ := h.within
  have hodd : crcPolynomial.toBitVec.getLsbD 0 = true := by decide
  have hlen : (wireBits a).length = (wireBits b).length := by
    rw [length_wireBits, length_wireBits, h.length]
  have hbits : wireBits a ≠ wireBits b := fun hbits => h.differ (wireBits_injective h.length hbits)
  apply feed_burst_ne hodd hlen hbits hwithin crc.toBitVec
  rw [← crc32Update_toBitVec, ← crc32Update_toBitVec, hsame]

/-- A burst in the middle of something is a burst. -/
theorem Burst.of_append (h : Burst (front ++ (a ++ back)) (front ++ (b ++ back))) : Burst a b where
  length := by
    have hlen := h.length
    simp only [List.length_append] at hlen
    omega
  differ := by
    rintro rfl
    exact h.differ rfl
  within := by
    obtain ⟨start, hwithin⟩ := h.within
    refine ⟨start - (wireBits front).length, fun i hdiffer => ?_⟩
    have hlen : (wireBits a).length = (wireBits b).length := by
      have hlen := h.length
      simp only [List.length_append] at hlen
      rw [length_wireBits, length_wireBits]
      omega
    have hshort : i < (wireBits a).length := by
      by_contra hlong
      rw [List.getElem?_eq_none (by omega), List.getElem?_eq_none (by omega)] at hdiffer
      exact hdiffer rfl
    have hplace (x : List UInt8) (hx : i < (wireBits x).length) :
        (wireBits (front ++ (x ++ back)))[(wireBits front).length + i]? = (wireBits x)[i]? := by
      rw [wireBits_append, wireBits_append, List.getElem?_append_right (by omega),
        Nat.add_sub_cancel_left, List.getElem?_append_left hx]
    have hbounds := hwithin ((wireBits front).length + i)
    rw [hplace a hshort, hplace b (hlen ▸ hshort)] at hbounds
    have := hbounds hdiffer
    omega

variable {cmd : UInt8} {seq : UInt16} {data arrived : List UInt8}

theorem exists_cons_of_length_cons {x : UInt8} {l r : List UInt8}
    (h : (x :: l).length = r.length) : ∃ y r', r = y :: r' ∧ l.length = r'.length := by
  obtain ⟨y, r', rfl⟩ := List.exists_cons_of_length_eq_add_one h.symm
  exact ⟨y, r', rfl, Nat.succ.inj h⟩

/-- A frame of which only CMD, SEQ and DATA are altered is a frame with the old
CRC. -/
theorem exists_covered (hlen : (sendFrame cmd seq data).length = arrived.length)
    (hintact : ∀ i, (sendFrame cmd seq data)[i]? ≠ arrived[i]? →
      i = 2 ∨ 5 ≤ i ∧ i < 7 + data.length) :
    ∃ cmd' seq' data', data'.length = data.length ∧ arrived = Host.magic ++
      (Receiver.covered cmd' seq' data' ++
        bytes32 (crc32Compute (Receiver.covered cmd seq data))) := by
  set crc := crc32Compute (Receiver.covered cmd seq data) with hcrc
  have hsent : sendFrame cmd seq data = frameMagic0 :: frameMagic1 :: cmd ::
      (UInt16.ofNat data.length).toUInt8 :: (UInt16.ofNat data.length >>> 8).toUInt8 ::
      seq.toUInt8 :: (seq >>> 8).toUInt8 :: (data ++ bytes32 crc) := by
    rw [Receiver.sendFrame_eq, ← hcrc]
    simp [Receiver.covered, Receiver.header, bytes16]
  rw [hsent] at hlen hintact
  have hsame (i : Nat) (hi : ¬ (i = 2 ∨ 5 ≤ i ∧ i < 7 + data.length)) := by
    exact not_not.mp (mt (hintact i) hi)
  obtain ⟨a₀, _, rfl, hlen₀⟩ := exists_cons_of_length_cons hlen
  obtain ⟨a₁, _, rfl, hlen₁⟩ := exists_cons_of_length_cons hlen₀
  obtain ⟨a₂, _, rfl, hlen₂⟩ := exists_cons_of_length_cons hlen₁
  obtain ⟨a₃, _, rfl, hlen₃⟩ := exists_cons_of_length_cons hlen₂
  obtain ⟨a₄, _, rfl, hlen₄⟩ := exists_cons_of_length_cons hlen₃
  obtain ⟨a₅, _, rfl, hlen₅⟩ := exists_cons_of_length_cons hlen₄
  obtain ⟨a₆, rest, rfl, hlen₆⟩ := exists_cons_of_length_cons hlen₅
  have hrest : rest.length = data.length + 4 := by
    rw [← hlen₆, List.length_append, length_bytes32]
  have htail : rest.drop data.length = bytes32 crc := by
    apply List.ext_getElem?
    intro i
    have hbyte := hsame (7 + (data.length + i)) (by omega)
    rw [List.getElem?_drop]
    simp only [Nat.add_comm 7, List.getElem?_cons_succ, List.getElem?_append_right
      (Nat.le_add_right ..), Nat.add_sub_cancel_left] at hbyte
    exact hbyte.symm
  have h₀ := Option.some.inj (hsame 0 (by omega))
  have h₁ := Option.some.inj (hsame 1 (by omega))
  have h₃ := Option.some.inj (hsame 3 (by omega))
  have h₄ := Option.some.inj (hsame 4 (by omega))
  have hdata : (rest.take data.length).length = data.length := by
    rw [List.length_take]
    omega
  refine ⟨a₂, word16 a₅ a₆, rest.take data.length, hdata, ?_⟩
  rw [← htail]
  rw [Receiver.covered, Receiver.header, bytes16_word16]
  simp [Host.magic, bytes16, frameMagic0, frameMagic1, hdata, ← h₀, ← h₁, ← h₃, ← h₄]

/-- The manager refuses a frame struck by a burst, and does nothing else. -/
theorem Host.Damaged.feedAll_eq {sent : List UInt8} (h : Host.Damaged sent arrived) {p : Protocol}
    (hhunting : p.rx.Hunting) :
    ∃ rx' seq', rx'.state = .magic0 ∧ Host.reports p.rx arrived = [.badCrc seq'.toNat] ∧
      Host.feedAll p arrived = pure (Host.withRx rx'
        ({ p with cntFramesKo := p.cntFramesKo + 1 }.sendNack seq' errCrc)) := by
  obtain ⟨front, last, rx₁, rx₂, seq', harrived, habsorbs, hfeed, hstate₂⟩ := h.feed hhunting
  have hreport : Host.reports p.rx arrived = [.badCrc seq'.toNat] := by
    rw [harrived, Host.reports_absorbs _ habsorbs, Host.reports, hfeed]
    rfl
  have hleft : Host.after p.rx arrived = rx₂ := by
    rw [harrived, Host.after_absorbs _ habsorbs]
    exact congrArg Prod.fst hfeed
  refine ⟨rx₂, seq', hstate₂, hreport, ?_⟩
  rw [Host.feedAll_eq_act, hreport, hleft, List.foldlM_cons, Host.act, UInt16.ofNat_toNat]
  rfl

/-- A burst changes the checksum, so a frame whose CMD, SEQ or DATA it strikes is
neither dispatched nor decoded. -/
theorem burst_detected :
    (∀ a b : List UInt8, Burst a b → Host.crc32Stm32 a ≠ Host.crc32Stm32 b) ∧
    ∀ (cmd : UInt8) (seq : UInt16) (data arrived : List UInt8), data.length ≤ 1024 →
      Burst (sendFrame cmd seq data) arrived →
      (∀ i, (sendFrame cmd seq data)[i]? ≠ arrived[i]? → i = 2 ∨ 5 ≤ i ∧ i < 7 + data.length) →
      Host.decode arrived = .error .badCrc ∧
      ∀ p : Protocol, p.rx.state = .magic0 ∨ p.rx.state = .magic1 → ∃ rx' seq',
        rx'.state = .magic0 ∧ Host.reports p.rx arrived = [.badCrc seq'.toNat] ∧
        Host.feedAll p arrived = pure (Host.withRx rx'
          ({ p with cntFramesKo := p.cntFramesKo + 1 }.sendNack seq' errCrc)) := by
  refine ⟨fun a b hburst => ?_, fun cmd seq data arrived hshort hburst hintact => ?_⟩
  · rw [Host.crc32Stm32_eq, Host.crc32Stm32_eq, ne_eq, UInt32.toNat_inj]
    exact hburst.crc32Update_ne crcInitValue
  obtain ⟨cmd', seq', data', hlen, rfl⟩ := exists_covered hburst.length hintact
  rw [Receiver.sendFrame_eq] at hburst
  have hcrc := hburst.of_append.crc32Update_ne crcInitValue
  have hdamaged : Host.Damaged (sendFrame cmd seq data) (Host.magic ++
      (Receiver.covered cmd' seq' data' ++
        bytes32 (crc32Compute (Receiver.covered cmd seq data)))) :=
    .mk hshort hlen hcrc.symm
  refine ⟨?_, fun p hstate => hdamaged.feedAll_eq hstate⟩
  rw [← hlen] at hshort
  rw [Receiver.covered, List.append_assoc]
  refine (Host.decode_body cmd' seq' (Receiver.toNat_length_field hshort) hshort _).trans ?_
  exact if_neg hcrc.symm

/-- A bit of CMD turns END_UPDATE into ABORT. -/
theorem burst_end_abort :
    Burst (sendFrame cmdEndUpdate 1 []) ((sendFrame cmdEndUpdate 1 []).set 2 cmdAbort) where
  length := List.length_set.symm
  differ := by decide +kernel
  within := by
    refine ⟨16, fun i hdiffer => ?_⟩
    have hbound : i < 88 := by
      by_contra hlong
      rw [List.getElem?_eq_none, List.getElem?_eq_none] at hdiffer
      · exact hdiffer rfl
      · rw [length_wireBits, List.length_set]
        exact Nat.not_lt.mp hlong
      · rw [length_wireBits]
        exact Nat.not_lt.mp hlong
    have hbits : ∀ i < 88, (wireBits (sendFrame cmdEndUpdate 1 []))[i]? ≠
        (wireBits ((sendFrame cmdEndUpdate 1 []).set 2 cmdAbort))[i]? →
          16 ≤ i ∧ i < 16 + 32 := by
      decide +kernel
    exact hbits i hbound hdiffer

theorem burst_detected_end_abort :
    Host.crc32Stm32 (sendFrame cmdEndUpdate 1 []) ≠
        Host.crc32Stm32 ((sendFrame cmdEndUpdate 1 []).set 2 cmdAbort) ∧
      Host.decode ((sendFrame cmdEndUpdate 1 []).set 2 cmdAbort) = .error .badCrc ∧
      ∃ rx' seq', rx'.state = .magic0 ∧
        Host.reports protocolInit.rx ((sendFrame cmdEndUpdate 1 []).set 2 cmdAbort) =
          [.badCrc seq'.toNat] ∧
        Host.feedAll protocolInit ((sendFrame cmdEndUpdate 1 []).set 2 cmdAbort) =
          pure (Host.withRx rx'
            ({ protocolInit with cntFramesKo := protocolInit.cntFramesKo + 1 }.sendNack seq'
              errCrc)) := by
  obtain ⟨hstrings, hframes⟩ := burst_detected
  obtain ⟨hdecode, hfeed⟩ := hframes cmdEndUpdate 1 [] _ (Nat.zero_le _) burst_end_abort (by
    intro i hdiffer
    by_contra hother
    rw [List.getElem?_set_ne (by omega)] at hdiffer
    exact hdiffer rfl)
  exact ⟨hstrings _ _ burst_end_abort, hdecode, hfeed protocolInit (.inl rfl)⟩

end Bursts

end OtaBoot
