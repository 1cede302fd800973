import OtaBoot.Host.Update
import OtaBoot.Histories

/-!
# An update from end to end

The host splits an image into blocks, numbers and frames them, and waits for an
ACK after each; the board parses, numbers, erases and programs on its own. The
invariant of the loop over the blocks says how much of the image is in the slot
and that both sides number the next block alike.
-/

namespace OtaBoot.Host

open Storage Raising

/-- What was written since, and that each frame was acknowledged. -/
def AckedSince (before : List (List UInt8 × List UInt8)) (count : Nat)
    (log : List (List UInt8 × List UInt8)) : Prop :=
  ∃ entries, log = before ++ entries ∧ entries.length = count ∧
    ∀ entry ∈ entries, ∃ cmd seq data,
      entry = (sendFrame cmd seq data, sendFrame OtaBoot.rspAck seq [])

theorem AckedSince.refl (log : List (List UInt8 × List UInt8)) : AckedSince log 0 log :=
  ⟨[], (List.append_nil _).symm, rfl, List.forall_mem_nil _⟩

theorem AckedSince.append {before log : List (List UInt8 × List UInt8)} {count : Nat}
    (h : AckedSince before count log) (cmd : UInt8) (seq : UInt16) (data : List UInt8) :
    AckedSince before (count + 1)
      (log ++ [(sendFrame cmd seq data, sendFrame OtaBoot.rspAck seq [])]) := by
  obtain ⟨entries, rfl, rfl, hacked⟩ := h
  refine ⟨entries ++ [(sendFrame cmd seq data, sendFrame OtaBoot.rspAck seq [])],
    List.append_assoc _ _ _, by simp, fun entry hentry => ?_⟩
  rcases List.mem_append.mp hentry with hold | hnew
  · exact hacked entry hold
  · exact ⟨cmd, seq, data, List.mem_singleton.mp hnew⟩

/-- The host is part way through an update that began with the link `start`. -/
structure Sending (start : Link) (image : List UInt8) (ver : UInt32) (sent : Nat) (seq : UInt16)
    (l : Link) : Prop where
  underway : Underway start.flash image ver sent seq l.flash l.proto.toTransfer
  timeout : l.proto.timeoutMs = timeoutDataMs
  hunting : l.proto.rx.state = .magic0
  inbox : l.inbox = []
  log : AckedSince start.log seq.toNat l.log

/-- The sequence number does not wrap. -/
theorem toNat_seq_succ {seq : UInt16} (h : seq.toNat + 1 < 65536) :
    (seq + 1).toNat = seq.toNat + 1 := by
  rw [UInt16.toNat_add]
  exact Nat.mod_eq_of_lt h

/-! ## Blocks of an image -/

section Blocks

variable {image : List UInt8} {sent : Nat}

/-- Without a block to come, all was sent. -/
theorem sent_of_no_block (hfits : sent ≤ image.length)
    (hnone : splitFirmware (image.drop sent) = []) : sent = image.length := by
  have hempty : image.drop sent = [] := by
    by_contra hdata
    rw [splitFirmware_cons hdata] at hnone
    cases hnone
  exact Nat.le_antisymm hfits (List.drop_eq_nil_iff.mp hempty)

/-- The next block, and the blocks behind it. Only the last block is short. -/
theorem next_block (himage : Sendable image) (haligned : sent % 8 = 0)
    (hsent : sent % 256 = 0 ∨ sent = image.length)
    (hsome : 0 < (splitFirmware (image.drop sent)).length) :
    ∃ block, splitFirmware (image.drop sent) =
        block :: splitFirmware (image.drop (sent + block.length)) ∧
      Underway.Next image sent block ∧ block.length ≤ 256 ∧
      ((sent + block.length) % 256 = 0 ∨ sent + block.length = image.length) := by
  have hdata : image.drop sent ≠ [] := by
    intro hempty
    rw [hempty, splitFirmware_nil] at hsome
    exact Nat.lt_irrefl 0 hsome
  have hleft : sent < image.length := by
    rw [ne_eq, List.drop_eq_nil_iff] at hdata
    omega
  have hlength : ((image.drop sent).take 256).length = min 256 (image.length - sent) := by
    rw [List.length_take, List.length_drop]
  have hsize := himage.aligned
  have hrest : (image.drop sent).drop 256 =
      image.drop (sent + ((image.drop sent).take 256).length) := by
    rw [List.drop_drop, hlength]
    rcases Nat.le_total (sent + 256) image.length with hfull | hshort
    · rw [Nat.min_eq_left (by omega)]
    · rw [List.drop_eq_nil_iff.mpr hshort, List.drop_eq_nil_iff.mpr (by omega)]
  refine ⟨(image.drop sent).take 256, ?_, ⟨by omega, by omega, by omega, ?_⟩, by omega, by omega⟩
  · rw [splitFirmware_cons hdata, hrest]
  · rw [hlength, List.take_eq_take_iff, List.length_drop]
    omega

end Blocks

/-! ## Frames of an update -/

section Frames

variable {channel : Channel} {start l : Link} {image block : List UInt8} {ver : UInt32}
  {sent : Nat} {seq : UInt16}

/-- The announcement. -/
theorem returns_start (hreliable : channel.Reliable) (himage : Sendable image) (ver : UInt32)
    (hidle : l.proto.state = .idle) (hhunting : l.proto.rx.Hunting) (hinbox : l.inbox = [])
    (hcounter : counterAt l.flash < 2 ^ 32 - 1) :
    ∃ l', Returns (exchange channel ⟨cmdStartUpdate, 0, startPayload (UInt32.ofNat image.length)
        (crc32Compute image) ver (freeSlot l.flash)⟩ 3) l ⟨rspAck, 0, []⟩ l' ∧
      Sending l image ver 0 1 l' := by
  have haction := action_start (t := l.proto.toTransfer) l.flash 0 (crc32Compute image) ver
    himage.size_ne_zero (UInt32.le_iff_toNat_le.mp himage.size_le)
  have hacked : l.Acknowledged channel
      (.start 0 (UInt32.ofNat image.length) (crc32Compute image) ver)
      (sendFrame OtaBoot.cmdStartUpdate 0 (startPayload (UInt32.ofNat image.length)
        (crc32Compute image) ver (freeSlot l.flash))) 0 := by
    refine Link.write_frame hreliable (by simp) hhunting
      (fun hstate => absurd (hidle.symm.trans hstate) (by decide)) (fun q hq => ?_) trivial
      (fun _ => rfl) rfl
    have hacts : Acts .calm l.flash q _ _ := dispatch_start_acts q 0 (startPayload
      (UInt32.ofNat image.length) (crc32Compute image) ver (freeSlot l.flash))
    rw [hq, haction] at hacts
    exact hacts
  have hunderway := underway_start (t := l.proto.toTransfer) himage ver hcounter 0
  rw [← hacked.flash, ← hacked.transfer] at hunderway
  have hexchange := returns_exchange (by simp) hinbox 2 hacked
  refine ⟨_, hexchange, ⟨hunderway, hacked.timeout, hacked.hunting, rfl, ?_⟩⟩
  exact hacked.log ▸ (AckedSince.refl l.log).append _ _ _

/-- One block. -/
theorem Sending.returns_block (h : Sending start image ver sent seq l)
    (hreliable : channel.Reliable) (himage : Sendable image)
    (hblock : Underway.Next image sent block) (hshort : block.length ≤ 256)
    (hseq : seq.toNat + 1 < 65536) :
    ∃ l', Returns (exchange channel ⟨cmdData, seq.toNat, block⟩ 3) l ⟨rspAck, seq.toNat, []⟩ l' ∧
      Sending start image ver (sent + block.length) (seq + 1) l' := by
  have haction := h.underway.action_data himage hblock
  have hacked : l.Acknowledged channel (.store seq block)
      (sendFrame OtaBoot.cmdData seq block) seq := by
    refine Link.write_frame hreliable (by omega) (.inl h.hunting) (fun _ => h.timeout)
      (fun q hq => ?_) (h.underway.ready himage hblock) (fun _ => h.timeout) rfl
    have hbounded : q.Bounded := hq ▸ h.underway.bounded himage
    have hacts : Acts .calm l.flash q _ _ := dispatch_acts hbounded OtaBoot.cmdData seq block
      (by omega)
    rw [hq, haction] at hacts
    exact hacts
  have hunderway := h.underway.store himage hblock
  rw [← hacked.flash, ← hacked.transfer] at hunderway
  have hexchange := returns_exchange (by omega) h.inbox 2 hacked
  refine ⟨_, hexchange, ⟨hunderway, hacked.timeout.trans h.timeout, hacked.hunting, rfl, ?_⟩⟩
  rw [toNat_seq_succ hseq]
  exact hacked.log ▸ h.log.append _ _ _

/-- The blocks that are left. -/
theorem Sending.returns_sendBlocks (h : Sending start image ver sent seq l)
    (hreliable : channel.Reliable) (himage : Sendable image)
    (hsent : sent % 256 = 0 ∨ sent = image.length)
    (hseq : seq.toNat + (splitFirmware (image.drop sent)).length < 65536) :
    ∃ l' last, Returns (sendBlocks channel seq.toNat (splitFirmware (image.drop sent))) l
        (some last.toNat) l' ∧
      last.toNat = seq.toNat + (splitFirmware (image.drop sent)).length ∧
      Sending start image ver image.length last l' := by
  induction hcount : (splitFirmware (image.drop sent)).length generalizing sent seq l with
  | zero =>
      obtain rfl := sent_of_no_block h.underway.fits (List.length_eq_zero_iff.mp hcount)
      rw [List.length_eq_zero_iff.mp hcount]
      exact ⟨l, seq, .pure _ _, rfl, h⟩
  | succ count ih =>
      obtain ⟨block, hsplit, hblock, hshort, hnext⟩ :=
        next_block himage h.underway.aligned hsent (by omega)
      rw [hsplit] at hcount hseq ⊢
      rw [List.length_cons] at hcount hseq
      obtain ⟨l₁, hexchange, h₁⟩ := h.returns_block hreliable himage hblock hshort (by omega)
      have hsucc := toNat_seq_succ (by omega : seq.toNat + 1 < 65536)
      obtain ⟨l₂, last, hblocks, hlast, h₂⟩ := ih h₁ hnext (by omega) (by omega)
      refine ⟨l₂, last, ?_, by omega, h₂⟩
      rw [sendBlocks]
      refine .bind (.tryCatch (.bind hexchange (.pure _ _))) ?_
      rw [hsucc] at hblocks
      exact hblocks

/-- The end of the update. -/
theorem Sending.returns_end (h : Sending start image ver image.length seq l)
    (hreliable : channel.Reliable) (himage : Sendable image)
    (hcounter : counterAt start.flash < 2 ^ 32 - 2) :
    ∃ l', Returns (exchange channel ⟨cmdEndUpdate, seq.toNat, []⟩ 1) l
        ⟨rspAck, seq.toNat, []⟩ l' ∧
      Installed start.flash image ver l'.flash ∧ l'.proto.state = .complete ∧
      AckedSince start.log (seq.toNat + 1) l'.log := by
  have haction := h.underway.action_end himage seq
  have hacked : l.Acknowledged channel (.finish seq)
      (sendFrame OtaBoot.cmdEndUpdate seq []) seq := by
    refine Link.write_frame hreliable (by simp) (.inl h.hunting) (fun _ => h.timeout)
      (fun q hq => ?_) trivial (fun hstate => by cases hstate) rfl
    have hbounded : q.Bounded := hq ▸ h.underway.bounded himage
    have hacts : Acts .calm l.flash q _ _ := dispatch_acts hbounded OtaBoot.cmdEndUpdate seq []
      (by simp)
    rw [hq, haction] at hacts
    exact hacts
  have hinstalled := h.underway.installed himage hcounter seq
  rw [← hacked.flash] at hinstalled
  have hexchange := returns_exchange (by simp) h.inbox 0 hacked
  refine ⟨_, hexchange, hinstalled, ?_, hacked.log ▸ h.log.append _ _ _⟩
  exact congrArg Transfer.state hacked.transfer

end Frames

/-! ## The file and the tool -/

/-- What `main` sends is made of whole double-words. -/
theorem sendable_padded {firmware : List UInt8} (hpos : firmware ≠ [])
    (hsize : firmware.length ≤ 491520) : Sendable (padded firmware) := by
  have hlen := List.length_pos_iff.mpr hpos
  unfold padded
  dsimp only
  split
  · constructor <;> rw [List.length_append, List.length_replicate] <;> omega
  next hremainder => exact ⟨hlen, by omega, hsize⟩

/-- The announcement of an image. -/
theorem pack_announcement {image : List UInt8} (himage : Sendable image) (slot : Slot)
    {version : Nat} (hversion : version < 2 ^ 32) :
    StartUpdate.pack ⟨image.length, crc32Stm32 image, version, slot.toByte.toNat⟩ =
      .ok (startPayload (UInt32.ofNat image.length) (crc32Compute image) (UInt32.ofNat version)
        slot) := by
  have hpack := StartUpdate.pack_eq (UInt32.ofNat image.length) (crc32Compute image)
    (UInt32.ofNat version) slot
  rw [himage.toNat_size, UInt32.toNat_ofNat_of_lt' hversion, ← crc32Stm32_eq] at hpack
  exact hpack

/-- The record after an installation, field by field. -/
theorem record_of_installed {flash flash' : Flash} {image : List UInt8} {ver : UInt32}
    (h : Installed flash image ver flash') :
    ∃ m, metadataRead flash' = some m ∧ m.activeSlot = (freeSlot flash).toByte ∧
      m.bootFailCount = 0 ∧
      (m.slot (freeSlot flash)).descriptor =
        ⟨UInt32.ofNat image.length, crc32Compute image, ver, stateTesting⟩ ∧
      (m.slot (freeSlot flash).other).descriptor =
        (((metadataRead flash).getD .zero).slot (freeSlot flash).other).descriptor := by
  obtain ⟨m, hread, hledger⟩ := ledgerAt_eq_some h.ledger
  have hactive : m.active = freeSlot flash := congrArg Ledger.active hledger
  refine ⟨m, hread, ?_, congrArg Ledger.bootFailCount hledger, ?_, ?_⟩
  · rw [← hactive, (metadataRead_sound hread).toByte_active]
  · rw [← Metadata.ledger_slot, hledger, slot_install]
  · rw [← Metadata.ledger_slot, hledger, slot_install_other, ledgerOrBlank_eq, Metadata.ledger_slot]

/-- Over a reliable channel, with the manager idle, `send_firmware` to the free
slot returns `True`, every frame is acknowledged, and the padded file is in the
slot and on trial. Nothing is left to read when it starts: the transport clears
its input when it opens the port, and every exchange reads its reply. -/
theorem sendFirmware_installs {channel : Channel} (hreliable : channel.Reliable) {l : Link}
    (hidle : l.proto.state = .idle) (hhunting : l.proto.rx.Hunting) (hinbox : l.inbox = [])
    (hcounter : counterAt l.flash < 2 ^ 32 - 2) (firmware : List UInt8) (hpos : firmware ≠ [])
    (hsize : firmware.length ≤ slotSize.toNat) (version : Nat) (hversion : version < 2 ^ 32) :
    ∃ l' m,
      Returns (sendFirmware channel (padded firmware) (freeSlot l.flash).toByte.toNat version) l
        true l' ∧
      AckedSince l.log ((splitFirmware (padded firmware)).length + 2) l'.log ∧
      l'.flash.read (freeSlot l.flash).addr.toNat (padded firmware).length = padded firmware ∧
      l'.proto.state = .complete ∧
      metadataRead l'.flash = some m ∧ m.activeSlot = (freeSlot l.flash).toByte ∧
      m.bootFailCount = 0 ∧
      (m.slot (freeSlot l.flash)).descriptor =
        ⟨UInt32.ofNat (padded firmware).length, UInt32.ofNat (crc32Stm32 (padded firmware)),
          UInt32.ofNat version, stateTesting⟩ ∧
      (m.slot (freeSlot l.flash).other).descriptor =
        (((metadataRead l.flash).getD .zero).slot (freeSlot l.flash).other).descriptor := by
  have himage : Sendable (padded firmware) := sendable_padded hpos hsize
  set image := padded firmware with himageEq
  have hcount : (splitFirmware image).length ≤ 1920 := by
    have hfits := himage.fits
    rw [length_splitFirmware]
    omega
  obtain ⟨l₁, hstart, h₁⟩ := returns_start hreliable himage (UInt32.ofNat version) hidle hhunting
    hinbox (by omega)
  -- every block is numbered below the wrap of the 16-bit sequence number
  obtain ⟨l₂, last, hblocks, hlast, h₂⟩ := h₁.returns_sendBlocks hreliable himage (.inl rfl)
    (by rw [List.drop_zero]; change 1 + _ < _; omega)
  obtain ⟨l₃, hend, hinstalled, hcomplete, hacked⟩ := h₂.returns_end hreliable himage hcounter
  rw [List.drop_zero] at hblocks hlast
  obtain ⟨m, hread, hactive, hfails, hslot, hother⟩ := record_of_installed hinstalled
  refine ⟨l₃, m, ?_, ?_, hinstalled.content, hcomplete, hread, hactive, hfails, ?_, hother⟩
  · have hnotNack : ¬ rspAck = rspNack := by decide
    refine .bind (.ofExcept (pack_announcement himage _ hversion) l) (.bind hstart ?_)
    rw [if_neg hnotNack]
    refine .bind hblocks (.bind (.tryCatch hend) ?_)
    rw [if_neg hnotNack]
    exact .pure _ _
  · rw [show (splitFirmware image).length + 2 = last.toNat + 1 by
      rw [hlast]
      change _ = 1 + _ + 1
      omega]
    exact hacked
  · rw [hslot, crc32Stm32_eq, UInt32.ofNat_toNat]

/-- A blank board, idle, which has heard the first byte of a magic. -/
def strayHeard : Link :=
  ⟨Board.blank.flash, { protocolInit with rx := (protocolInit.rx.feed frameMagic0).1 }, [], []⟩

/-- A file of five bytes, one byte a poll. -/
theorem sendFirmware_installs_fiveBytes :
    ∃ l' m,
      Returns (sendFirmware Channel.bytewise [1, 2, 3, 4, 5, 0xFF, 0xFF, 0xFF] 1 7) strayHeard
        true l' ∧
      l'.flash.read slotBAddr.toNat 8 = [1, 2, 3, 4, 5, 0xFF, 0xFF, 0xFF] ∧
      metadataRead l'.flash = some m ∧ m.activeSlot = 1 ∧ m.slotB.state = stateTesting := by
  have hfree : freeSlot strayHeard.flash = .b := Board.blank_freeSlot
  have hcounter : counterAt strayHeard.flash < 2 ^ 32 - 2 := by
    rw [strayHeard, Board.blank_counter]
    decide
  have hinstalls := sendFirmware_installs Channel.bytewise_reliable (l := strayHeard) rfl
    (.inr rfl) rfl hcounter [1, 2, 3, 4, 5] (by decide) (by decide) 7 (by decide)
  rw [hfree] at hinstalls
  obtain ⟨l', m, hreturns, -, hcontent, -, hread, hactive, -, hslot, -⟩ := hinstalls
  exact ⟨l', m, hreturns, hcontent, hread, hactive, congrArg Descriptor.state hslot⟩

end OtaBoot.Host
