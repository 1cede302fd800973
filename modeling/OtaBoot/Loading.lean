import OtaBoot.Delivery

/-!
# Blocks, one after the other

What a transfer does when nothing goes wrong, seen from the slot: the bytes
stored so far are there, and the rest of the page that was begun is erased.
-/

namespace OtaBoot

open Storage LittleEndian

/-! ## Decisions of well-formed commands -/

/-- The payload of a START_UPDATE frame. -/
def startPayload (size crc ver : UInt32) (slot : Slot) : List UInt8 :=
  bytes32 size ++ bytes32 crc ++ bytes32 ver ++ [slot.toByte, protoVersion, 0, 0]

@[simp] theorem length_startPayload (size crc ver : UInt32) (slot : Slot) :
    (startPayload size crc ver slot).length = 16 := rfl

theorem ofBytes_startPayload (size crc ver : UInt32) (slot : Slot) :
    StartRequest.ofBytes (startPayload size crc ver slot) =
      ⟨size, crc, ver, slot.toByte, protoVersion⟩ := by
  simp [StartRequest.ofBytes, startPayload, bytes32]

section Decisions

variable {t : Transfer} (flash : Flash) (seq : UInt16)

theorem action_start {size : UInt32} (crc ver : UInt32) (hpos : size ≠ 0)
    (hsize : size.toNat ≤ 491520) :
    t.action flash cmdStartUpdate seq (startPayload size crc ver (freeSlot flash)) =
      .start seq size crc ver := by
  have hacceptable : (StartRequest.ofBytes (startPayload size crc ver (freeSlot flash))).Acceptable
      flash := by
    rw [ofBytes_startPayload]
    refine ⟨rfl, ?_, rfl⟩
    rw [not_or, UInt32.not_lt, UInt32.le_iff_toNat_le]
    exact ⟨hpos, hsize⟩
  rw [Transfer.action_cmdStartUpdate, if_pos ⟨rfl, hacceptable⟩, ofBytes_startPayload]

/-- A block that continues the transfer passes the tests of `on_data`. -/
theorem Transfer.Continues.checks {block : List UInt8} (hblock : t.Continues block)
    (hb : t.Bounded) :
    ¬ (UInt32.ofNat block.length = 0 ∨ UInt32.ofNat block.length % 8 ≠ 0) ∧
      ¬ t.bytesWritten + UInt32.ofNat block.length > t.fwSize := by
  have hsize := hb.size
  have hpos := hblock.nonempty
  have hfits := hblock.fits
  have hofNat : (UInt32.ofNat block.length).toNat = block.length :=
    UInt32.toNat_ofNat_of_lt' (by simp only [UInt32.size]; omega)
  constructor
  · rw [not_or, Decidable.not_not, ← UInt32.toNat_inj, ← UInt32.toNat_inj, UInt32.toNat_mod, hofNat]
    exact ⟨Nat.pos_iff_ne_zero.mp hpos, hblock.aligned⟩
  · rw [UInt32.not_lt, UInt32.le_iff_toNat_le, UInt32.toNat_add, hofNat,
      Nat.mod_eq_of_lt (by omega)]
    exact hfits

theorem action_data {block : List UInt8} (hb : t.Bounded) (hstate : t.state = .receiving)
    (hseq : seq = t.expectedSeq) (hnew : seq ≠ t.lastSeq) (hblock : t.Continues block) :
    t.action flash cmdData seq block = .store seq block := by
  obtain ⟨haligned, hfits⟩ := hblock.checks hb
  rw [Transfer.action_cmdData, if_neg (not_not.mpr hstate), if_neg hnew,
    if_neg (not_not.mpr hseq), if_neg haligned, if_neg hfits]

theorem action_end (data : List UInt8) (hstate : t.state = .receiving)
    (hwritten : t.bytesWritten = t.fwSize)
    (hcrc : crc32Compute (flash.read t.targetSlot.addr.toNat t.fwSize.toNat) = t.fwCrc32) :
    t.action flash cmdEndUpdate seq data = .finish seq := by
  rw [Transfer.action_cmdEndUpdate, if_neg (not_not.mpr hstate), if_neg (not_not.mpr hwritten),
    if_neg (not_not.mpr hcrc)]

theorem action_abort (data : List UInt8) : t.action flash cmdAbort seq data = .abort := rfl

end Decisions

/-! ## Images -/

/-- An image that a slot can take and that is programmed in whole double-words. -/
structure Sendable (image : List UInt8) : Prop where
  nonempty : 0 < image.length
  aligned : image.length % 8 = 0
  fits : image.length ≤ 491520

section Sendable

variable {image : List UInt8}

theorem Sendable.toNat_size (h : Sendable image) :
    (UInt32.ofNat image.length).toNat = image.length :=
  UInt32.toNat_ofNat_of_lt' (by have := h.fits; simp only [UInt32.size]; omega)

theorem Sendable.size_ne_zero (h : Sendable image) : UInt32.ofNat image.length ≠ 0 := by
  intro hzero
  have hlen := h.toNat_size
  have hpos := h.nonempty
  rw [hzero] at hlen
  change 0 = image.length at hlen
  omega

theorem Sendable.size_le (h : Sendable image) : UInt32.ofNat image.length ≤ slotSize := by
  rw [UInt32.le_iff_toNat_le, h.toNat_size, toNat_slotSize]
  exact h.fits

end Sendable

/-! ## The page that was begun -/

section RestBlank

variable {flash : Flash} {t : Transfer} {block : List UInt8}

/-- What is left of the page that was begun is erased. -/
def RestBlank (flash : Flash) (t : Transfer) : Prop :=
  t.bytesWritten.toNat % 2048 ≠ 0 →
    flash.Blank (t.targetSlot.addr.toNat + t.bytesWritten.toNat)
      (2048 - t.bytesWritten.toNat % 2048)

/-- A block that ends within the page it begins in. -/
def Transfer.WithinPage (t : Transfer) (block : List UInt8) : Prop :=
  t.bytesWritten.toNat % 2048 + block.length ≤ 2048

theorem Transfer.toNat_advanced (hb : t.Bounded) (hblock : t.Continues block) :
    (t.bytesWritten + UInt32.ofNat block.length).toNat = t.bytesWritten.toNat + block.length := by
  have hsize := hb.size
  have hfits := hblock.fits
  have hofNat : (UInt32.ofNat block.length).toNat = block.length :=
    UInt32.toNat_ofNat_of_lt' (by simp only [UInt32.size]; omega)
  rw [UInt32.toNat_add, hofNat, Nat.mod_eq_of_lt (by omega)]

/-- The rest of the page is erased when the next block comes. -/
theorem RestBlank.pageReady (h : RestBlank flash t) (hb : t.Bounded) :
    (t.pageReady flash).Blank t.blockAddr.toNat (2048 - t.bytesWritten.toNat % 2048) := by
  unfold Transfer.pageReady
  split
  · exact Flash.blank_erased _ (by omega) (by omega)
  next hpage =>
    rw [Transfer.pageBoundary_iff] at hpage
    rw [Transfer.toNat_blockAddr hb]
    exact h hpage

theorem RestBlank.ready (h : RestBlank flash t) (hb : t.Bounded) (hpage : t.WithinPage block)
    (seq : UInt16) : (Action.store seq block).Ready flash t := by
  unfold Transfer.WithinPage at hpage
  exact (h.pageReady hb).mono (by omega) (by omega)

/-- The part of the page behind a block stays erased. -/
theorem RestBlank.store (h : RestBlank flash t) (hb : t.Bounded) (hblock : t.Continues block)
    (hpage : t.WithinPage block) (seq : UInt16) :
    RestBlank ((Action.store seq block).image flash t)
      ((Action.store seq block).success flash t) := by
  have haddr := Transfer.toNat_blockAddr hb
  have hsum : ((Action.store seq block).success flash t).bytesWritten.toNat =
      t.bytesWritten.toNat + block.length := Transfer.toNat_advanced hb hblock
  unfold Transfer.WithinPage at hpage
  intro hrest
  rw [hsum] at hrest ⊢
  have hblank := (h.pageReady hb).mono (Nat.le_add_right _ block.length)
    (by omega : _ + (2048 - (t.bytesWritten.toNat + block.length) % 2048) ≤ _)
  have hagree : Memory.AgreeOn (t.blockAddr.toNat + block.length)
      (2048 - (t.bytesWritten.toNat + block.length) % 2048)
      ((Action.store seq block).image flash t) (t.pageReady flash) :=
    Memory.store_agreeOn _ _ _ (.inr (by omega))
  change Flash.Blank _ (t.targetSlot.addr.toNat + _) _
  rw [← Nat.add_assoc, ← haddr, Flash.Blank, hagree.read_eq]
  exact hblank

end RestBlank

/-! ## An image that is being stored -/

/-- A block is added to what was stored before it. -/
theorem Transfer.read_stored {t : Transfer} {block : List UInt8} (hb : t.Bounded)
    (hblock : t.Continues block) (flash : Flash) (seq : UInt16) :
    ((Action.store seq block).image flash t).read t.targetSlot.addr.toNat
        (t.bytesWritten.toNat + block.length) =
      flash.read t.targetSlot.addr.toNat t.bytesWritten.toNat ++ block := by
  have haddr := toNat_blockAddr hb
  have hsize := hb.size
  have hfits := hblock.fits
  -- what was stored lies in front of the block and of the page it may begin
  have hready : Memory.AgreeOn t.targetSlot.addr.toNat t.bytesWritten.toNat (t.pageReady flash)
      flash := by
    unfold pageReady
    split
    · exact Memory.fill_agreeOn _ _ _ _ (.inl (by omega))
    · exact .refl _ _ _
  have hbefore : Memory.AgreeOn t.targetSlot.addr.toNat t.bytesWritten.toNat
      ((Action.store seq block).image flash t) flash :=
    (Memory.store_agreeOn _ _ _ (.inl (by omega))).trans hready
  have hstored : ((Action.store seq block).image flash t).read
      (t.targetSlot.addr.toNat + t.bytesWritten.toNat) block.length = block := by
    rw [← haddr]
    exact Memory.read_store_self _ _ _
  rw [Memory.read_add, hstored, hbefore.read_eq]

theorem seq_ne_succ (seq : UInt16) : seq ≠ seq + 1 := by
  intro h
  have hnat := congrArg UInt16.toNat h
  rw [UInt16.toNat_add, show (1 : UInt16).toNat = 1 from rfl] at hnat
  have hlt := seq.toNat_lt
  omega

/-- The part of the image that follows what was sent, within a page. -/
structure Underway.Next (image : List UInt8) (sent : Nat) (block : List UInt8) : Prop where
  nonempty : 0 < block.length
  aligned : block.length % 8 = 0
  page : sent % 2048 + block.length ≤ 2048
  part : (image.drop sent).take block.length = block

theorem Underway.Next.fits {image block : List UInt8} {sent : Nat}
    (hblock : Underway.Next image sent block) : sent + block.length ≤ image.length := by
  have hlen := congrArg List.length hblock.part
  rw [List.length_take, List.length_drop] at hlen
  have hpos := hblock.nonempty
  omega

/-- So many bytes of an image are in a slot. `seq` is the sequence number of the
next block. -/
structure Loading (s : Slot) (image : List UInt8) (sent : Nat) (seq : UInt16) (flash : Flash)
    (t : Transfer) : Prop where
  content : flash.read s.addr.toNat sent = image.take sent
  rest : RestBlank flash t
  state : t.state = .receiving
  target : t.targetSlot = s
  fwSize : t.fwSize = UInt32.ofNat image.length
  written : t.bytesWritten.toNat = sent
  fits : sent ≤ image.length
  aligned : sent % 8 = 0
  expectedSeq : t.expectedSeq = seq
  lastSeq : t.lastSeq ≠ seq

namespace Loading

variable {s : Slot} {image block : List UInt8} {sent : Nat} {seq : UInt16} {flash : Flash}
  {t : Transfer}

/-- A context that was just started. -/
theorem start (flash : Flash) (t : Transfer) (seq : UInt16) (s : Slot) (image : List UInt8)
    (crc ver : UInt32) :
    Loading s image 0 (seq + 1) flash (t.started seq s (UInt32.ofNat image.length) crc ver) where
  content := rfl
  rest := fun h => absurd rfl h
  state := rfl
  target := rfl
  fwSize := rfl
  written := rfl
  fits := Nat.zero_le _
  aligned := rfl
  expectedSeq := rfl
  lastSeq := seq_ne_succ seq

/-- The rest of the page, where the image has come to. -/
theorem blank (h : Loading s image sent seq flash t) (hrest : sent % 2048 ≠ 0) :
    flash.Blank (s.addr.toNat + sent) (2048 - sent % 2048) := by
  have hblank := h.rest
  unfold RestBlank at hblank
  rw [h.written, h.target] at hblank
  exact hblank hrest

theorem bounded (h : Loading s image sent seq flash t) (himage : Sendable image) : t.Bounded := by
  refine ⟨?_, ?_, ?_⟩
  · rw [h.fwSize, himage.toNat_size]
    exact himage.fits
  · rw [h.written, h.fwSize, himage.toNat_size]
    exact h.fits
  · rw [h.written]
    exact h.aligned

theorem continues (h : Loading s image sent seq flash t) (himage : Sendable image)
    (hblock : Underway.Next image sent block) : t.Continues block := by
  refine ⟨hblock.nonempty, hblock.aligned, ?_⟩
  rw [h.written, h.fwSize, himage.toNat_size]
  exact hblock.fits

theorem withinPage (h : Loading s image sent seq flash t)
    (hblock : Underway.Next image sent block) : t.WithinPage block := by
  rw [Transfer.WithinPage, h.written]
  exact hblock.page

theorem action_data (h : Loading s image sent seq flash t) (himage : Sendable image)
    (hblock : Underway.Next image sent block) :
    t.action flash cmdData seq block = .store seq block :=
  OtaBoot.action_data flash seq (h.bounded himage) h.state h.expectedSeq.symm h.lastSeq.symm
    (h.continues himage hblock)

theorem ready (h : Loading s image sent seq flash t) (himage : Sendable image)
    (hblock : Underway.Next image sent block) : (Action.store seq block).Ready flash t :=
  h.rest.ready (h.bounded himage) (h.withinPage hblock) seq

/-- A block is stored. -/
theorem store (h : Loading s image sent seq flash t) (himage : Sendable image)
    (hblock : Underway.Next image sent block) :
    Loading s image (sent + block.length) (seq + 1) ((Action.store seq block).image flash t)
      ((Action.store seq block).success flash t) := by
  have hb := h.bounded himage
  have hcontinues := h.continues himage hblock
  have hread := Transfer.read_stored hb hcontinues flash seq
  rw [h.target, h.written, h.content] at hread
  exact {
    content := by rw [hread, List.take_add, hblock.part]
    rest := h.rest.store hb hcontinues (h.withinPage hblock) seq
    state := h.state
    target := h.target
    fwSize := h.fwSize
    written := (Transfer.toNat_advanced hb hcontinues).trans (by rw [h.written])
    fits := hblock.fits
    aligned := by
      have hsent := h.aligned
      have hlen := hblock.aligned
      omega
    expectedSeq := rfl
    lastSeq := seq_ne_succ seq }

/-- After the last block, END_UPDATE is accepted. -/
theorem action_end (h : Loading s image image.length seq flash t) (himage : Sendable image)
    (hcrc : t.fwCrc32 = crc32Compute image) (seq' : UInt16) :
    t.action flash cmdEndUpdate seq' [] = .finish seq' := by
  have hcontent := h.content
  rw [List.take_length] at hcontent
  refine OtaBoot.action_end flash seq' [] h.state ?_ ?_
  · rw [← UInt32.toNat_inj, h.written, h.fwSize, himage.toNat_size]
  · rw [h.target, h.fwSize, hcrc, himage.toNat_size, hcontent]

end Loading

end OtaBoot
