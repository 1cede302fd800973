import OtaBoot.Host.FlashTool
import OtaBoot.Properties.EndToEnd

/-!
# A run of the tool from beginning to end

A board that listens is asked what it runs, and the answer decides what it is
sent: the tool and the board agree on the free slot, and the new image never has
the version of the one that was running.
-/

namespace OtaBoot.Host

open Storage LittleEndian Raising

/-! ## Versions -/

/-- The three fields of a version are the digits of a number, and the highest one
is dropped when it is full. -/
theorem nextVersion_eq (current : Nat) : nextVersion current = (current + 1) % 2 ^ 24 := by
  have hmask (n : Nat) : n &&& 0xFF = n % 256 := Nat.and_two_pow_sub_one_eq_mod n 8
  have hpacked (major minor patch : Nat) (hminor : minor < 256) (hpatch : patch < 256) :
      major <<< 16 ||| minor <<< 8 ||| patch = 65536 * major + 256 * minor + patch := by
    have hlow : minor <<< 8 ||| patch = 256 * minor + patch := by
      rw [← Nat.shiftLeft_add_eq_or_of_lt hpatch, Nat.shiftLeft_eq]
      omega
    rw [Nat.or_assoc, hlow, ← Nat.shiftLeft_add_eq_or_of_lt (by omega), Nat.shiftLeft_eq]
    omega
  unfold nextVersion
  simp only [hmask, Nat.shiftRight_eq_div_pow]
  by_cases hpatch : current % 256 + 1 > 255
  · by_cases hminor : current / 2 ^ 8 % 256 + 1 > 255
    · simp only [hpatch, hminor, if_true]
      rw [hpacked _ _ _ (by omega) (by omega)]
      omega
    · simp only [hpatch, hminor, if_true, if_false]
      rw [hpacked _ _ _ (by omega) (by omega)]
      omega
  · have hminor : ¬ current / 2 ^ 8 % 256 > 255 := by omega
    simp only [hpatch, hminor, if_false]
    rw [hpacked _ _ _ (by omega) (by omega)]
    omega

/-- So the next version is another one. -/
theorem nextVersion_ne (current : Nat) : nextVersion current ≠ current := by
  rw [nextVersion_eq]
  omega

/-! ## The answer to GET_INFO -/

/-- What is known of the active slot, as far as GET_INFO tells it. -/
def infoVersion (flash : Flash) : UInt32 :=
  ((metadataRead flash).map fun m => (m.slot m.active).version).getD 0

def infoState (flash : Flash) : UInt8 :=
  ((metadataRead flash).map fun m => (m.slot m.active).state).getD stateEmpty

/-- The payload of `on_get_info`. -/
def infoPayload (flash : Flash) : List UInt8 :=
  bytes32 (infoVersion flash) ++ bytes32 bootloaderVersion ++
    [OtaBoot.protoVersion, (freeSlot flash).other.toByte, (freeSlot flash).toByte, infoState flash]

theorem onGetInfo_run (p : Protocol) (seq : UInt16) (w : World Flash FlashCall) :
    (p.onGetInfo seq).run w = (.done (p.send OtaBoot.rspInfo seq (infoPayload w.state)), w) := by
  have hactive : ((metadataRead w.state).map Metadata.active).getD .a =
      (freeSlot w.state).other := by
    rw [freeSlot, Slot.other_other]
  unfold Protocol.onGetInfo
  rw [Faulty.run_bind_done (Faulty.run_read w)]
  dsimp only
  rw [hactive, Slot.other_other]
  rfl

/-- What the tool makes of it. -/
def boardInfo (flash : Flash) : InfoResponse where
  fwVersion := (infoVersion flash).toNat
  blVersion := bootloaderVersion.toNat
  protoVersion := protoVersion
  activeSlot := (freeSlot flash).other.toByte.toNat
  freeSlot := (freeSlot flash).toByte.toNat
  state := (infoState flash).toNat

theorem unpack_infoPayload (flash : Flash) :
    InfoResponse.unpack (infoPayload flash) = .ok (boardInfo flash) := by
  have hlength : ¬ (infoPayload flash).length ≠ 12 := not_not.mpr rfl
  have hbyte (b : UInt8) : unpackField [b] = b.toNat := by
    rw [unpackField]
    simp
  rw [InfoResponse.unpack, if_neg hlength]
  refine congrArg Except.ok ?_
  rw [boardInfo, ← unpackField_bytes32, ← unpackField_bytes32, ← hbyte, ← hbyte, ← hbyte]
  rfl

/-- What a board is like after it was asked. -/
structure Link.Asked (l l' : Link) : Prop where
  flash : l'.flash = l.flash
  transfer : l'.proto.toTransfer = l.proto.toTransfer
  hunting : l'.proto.rx.state = .magic0
  timeout : l'.proto.timeoutMs = l.proto.timeoutMs

section Asking

variable {channel : Channel} {l : Link}

theorem Link.write_getInfo (hreliable : channel.Reliable) (hhunting : l.proto.rx.Hunting)
    (htimer : TimerSet l.proto) :
    l.Asked (l.write channel (sendFrame OtaBoot.cmdGetInfo 0 [])) ∧
      (l.write channel (sendFrame OtaBoot.cmdGetInfo 0 [])).proto.tx =
        sendFrame OtaBoot.rspInfo 0 (infoPayload l.flash) := by
  let post (q : Protocol) (flash : Flash) : Prop :=
    flash = l.flash ∧ q.toTransfer = l.proto.toTransfer ∧ q.rx.state = .magic0 ∧
      q.timeoutMs = l.proto.timeoutMs ∧ q.tx = sendFrame OtaBoot.rspInfo 0 (infoPayload l.flash)
  have hpost : post (l.write channel (sendFrame OtaBoot.cmdGetInfo 0 [])).proto
      (l.write channel (sendFrame OtaBoot.cmdGetInfo 0 [])).flash := by
    refine Link.write_dispatch post hreliable (Nat.zero_le _) hhunting htimer ?_ fun _ _ _ h => h
    intro q htransfer htimeout htx hrx
    refine ⟨_, _, onGetInfo_run { q with cntFramesOk := q.cntFramesOk + 1 } 0 _, ?_, rfl, htransfer,
      hrx, htimeout, ?_⟩
    · intro hreceiving
      exact htimeout.trans (htimer ((congrArg Transfer.state htransfer).symm.trans hreceiving))
    · change q.tx ++ _ = _
      rw [htx]
      rfl
  obtain ⟨hflash, htransfer, hrx, htimeout, htx⟩ := hpost
  exact ⟨⟨hflash, htransfer, hrx, htimeout⟩, htx⟩

/-- A board that listens answers at once. -/
theorem returns_readInfo (hreliable : channel.Reliable) (hhunting : l.proto.rx.Hunting)
    (htimer : TimerSet l.proto) (hinbox : l.inbox = []) :
    ∃ l', Returns (readInfo channel) l (boardInfo l.flash) l' ∧ l.Asked l' ∧ l'.inbox = [] := by
  obtain ⟨hasked, htx⟩ := Link.write_getInfo hreliable hhunting htimer
  set raw := sendFrame OtaBoot.cmdGetInfo 0 [] with hraw
  have hsend : Returns (send channel ⟨cmdGetInfo, 0, []⟩) l ⟨⟩ (l.write channel raw) :=
    .bind (.ofExcept (encode_eq OtaBoot.cmdGetInfo 0 (Nat.zero_le _)) l) (.bind (.get l) (.set _ _))
  have hreply : (l.write channel raw).inbox =
      sendFrame OtaBoot.rspInfo 0 (infoPayload l.flash) ++ [] := by
    rw [Link.inbox_write, hinbox, htx, List.nil_append, List.append_nil]
  have hlen : (infoPayload l.flash).length ≤ 1024 := (by decide : 12 ≤ 1024)
  have hexchange : Returns (exchange channel ⟨cmdGetInfo, 0, []⟩ 3) l
      ⟨rspInfo, 0, infoPayload l.flash⟩ { l.write channel raw with inbox := [] } :=
    .tryCatch (.bind hsend (returns_receive hlen hreply))
  have hnotNack : ¬ rspInfo = rspNack := by decide
  have hinfo : ¬ rspInfo ≠ rspInfo := not_not.mpr rfl
  refine ⟨{ l.write channel raw with inbox := [] }, .bind hexchange ?_,
    ⟨hasked.flash, hasked.transfer, hasked.hunting, hasked.timeout⟩, rfl⟩
  rw [if_neg hnotNack, if_neg hinfo]
  exact .ofExcept (unpack_infoPayload l.flash) _

end Asking

/-! ## The run -/

section Run

variable {channel : Channel} {l : Link}

/-- The transfer of an image to the free slot. -/
theorem returns_sendFirmware (hreliable : channel.Reliable) (hidle : l.proto.state = .idle)
    (hhunting : l.proto.rx.Hunting) (hinbox : l.inbox = [])
    (hcounter : counterAt l.flash < 2 ^ 32 - 2) {image : List UInt8} (himage : Sendable image)
    {version : Nat} (hversion : version < 2 ^ 32) :
    ∃ l', Returns (sendFirmware channel image (freeSlot l.flash).toByte.toNat version) l true l' ∧
      Installed l.flash image (UInt32.ofNat version) l'.flash ∧ l'.proto.state = .complete := by
  have hblocks : 1 + (splitFirmware image).length < 65536 := by
    have hfits := himage.fits
    rw [length_splitFirmware]
    omega
  obtain ⟨l₁, hstart, h₁⟩ := returns_start hreliable himage (UInt32.ofNat version) hidle hhunting
    hinbox (by omega)
  obtain ⟨l₂, last, hsent, -, h₂⟩ := h₁.returns_sendBlocks hreliable himage (.inl rfl)
    (by rwa [List.drop_zero])
  obtain ⟨l₃, hend, hinstalled, hcomplete, -⟩ := h₂.returns_end hreliable himage hcounter
  rw [List.drop_zero] at hsent
  have hnotNack : ¬ rspAck = rspNack := by decide
  refine ⟨l₃, ?_, hinstalled, hcomplete⟩
  refine .bind (.ofExcept (pack_announcement himage _ hversion) l) (.bind hstart ?_)
  rw [if_neg hnotNack]
  refine .bind hsent (.bind (.tryCatch hend) ?_)
  rw [if_neg hnotNack]
  exact .pure _ _

/-- The version that a run gives to its image. -/
def Args.newVersion (args : Args) (flash : Flash) : Nat :=
  args.version.getD (nextVersion (infoVersion flash).toNat)

theorem Args.newVersion_lt {args : Args}
    (hversion : ∀ version, args.version = some version → version < 2 ^ 32) (flash : Flash) :
    args.newVersion flash < 2 ^ 32 := by
  unfold Args.newVersion
  cases hgiven : args.version with
  | some version => exact hversion version hgiven
  | none =>
      rw [Option.getD_none, nextVersion_eq]
      omega

/-- The whole run. -/
theorem returns_flashMain (hreliable : channel.Reliable) (hidle : l.proto.state = .idle)
    (hhunting : l.proto.rx.Hunting) (hinbox : l.inbox = [])
    (hcounter : counterAt l.flash < 2 ^ 32 - 2) (bursts : Nat) {args : Args} {firmware : List UInt8}
    (hinfo : args.info = false)
    (hfile : args.firmware (freeSlot l.flash).toByte.toNat = some firmware) (hpos : firmware ≠ [])
    (hsize : firmware.length ≤ slotSize.toNat)
    (hversion : ∀ version, args.version = some version → version < 2 ^ 32) :
    ∃ l', Returns (flashMain channel bursts args) l 0 l' ∧ l'.proto.state = .complete ∧
      Installed l.flash (padded firmware) (UInt32.ofNat (args.newVersion l.flash)) l'.flash := by
  have hnever : ProtocolState.idle ≠ .receiving := by decide
  obtain ⟨l₁, hread, hasked, hinbox₁⟩ := returns_readInfo hreliable hhunting
    (fun h => absurd (hidle.symm.trans h) hnever) hinbox
  have hidle₁ : l₁.proto.state = .idle := (congrArg Transfer.state hasked.transfer).trans hidle
  obtain ⟨l₂, hsent, hinstalled, hcomplete⟩ := returns_sendFirmware hreliable hidle₁
    (.inl hasked.hunting) hinbox₁ (by rwa [hasked.flash]) (sendable_padded hpos hsize)
    (Args.newVersion_lt hversion l.flash)
  rw [hasked.flash] at hsent hinstalled
  refine ⟨l₂, ?_, hcomplete, hinstalled⟩
  have hproto : ¬ (boardInfo l.flash).protoVersion ≠ protoVersion := not_not.mpr rfl
  refine .tryCatch (.bind (.tryCatch hread) ?_)
  rw [if_neg hproto, hinfo, if_neg Bool.false_ne_true]
  have hchosen : args.firmware (boardInfo l.flash).freeSlot = some firmware := hfile
  dsimp only
  rw [hchosen]
  dsimp only
  rw [if_neg hpos]
  exact .bind hsent (.pure _ _)

/-- Whatever a listening board runs, one run of the tool over a reliable channel ends
well, and leaves the padded file in the free slot and on trial, under the version
that was asked for or one that differs from the version that was running. The
record of the other slot is what it was. -/
theorem flashMain_installs (hreliable : channel.Reliable) (hidle : l.proto.state = .idle)
    (hhunting : l.proto.rx.Hunting) (hinbox : l.inbox = [])
    (hcounter : counterAt l.flash < 2 ^ 32 - 2) (bursts : Nat) {args : Args} {firmware : List UInt8}
    (hinfo : args.info = false)
    (hfile : args.firmware (freeSlot l.flash).toByte.toNat = some firmware) (hpos : firmware ≠ [])
    (hsize : firmware.length ≤ slotSize.toNat)
    (hversion : ∀ version, args.version = some version → version < 2 ^ 32) :
    ∃ l' m, Returns (flashMain channel bursts args) l 0 l' ∧ l'.proto.state = .complete ∧
      l'.flash.read (freeSlot l.flash).addr.toNat (padded firmware).length = padded firmware ∧
      metadataRead l'.flash = some m ∧ m.active = freeSlot l.flash ∧ m.bootFailCount = 0 ∧
      (m.slot (freeSlot l.flash)).descriptor =
        ⟨UInt32.ofNat (padded firmware).length, crc32Compute (padded firmware),
          UInt32.ofNat (args.newVersion l.flash), stateTesting⟩ ∧
      (args.version = none → (m.slot (freeSlot l.flash)).version ≠ infoVersion l.flash) ∧
      (m.slot (freeSlot l.flash).other).descriptor =
        (((metadataRead l.flash).getD .zero).slot (freeSlot l.flash).other).descriptor := by
  obtain ⟨l', hreturns, hcomplete, hinstalled⟩ := returns_flashMain hreliable hidle hhunting hinbox
    hcounter bursts hinfo hfile hpos hsize hversion
  obtain ⟨m, hm, hactive, hfails, hslot, hother⟩ := record_of_installed hinstalled
  refine ⟨l', m, hreturns, hcomplete, hinstalled.content, hm, ?_, hfails, hslot, ?_, hother⟩
  · have hledger := (ledgerAt_of_read hm).symm.trans hinstalled.ledger
    exact congrArg Ledger.active (Option.some.inj hledger)
  · intro hnone hsame
    have hnew : (m.slot (freeSlot l.flash)).version = UInt32.ofNat (args.newVersion l.flash) :=
      congrArg Descriptor.version hslot
    rw [hsame] at hnew
    have hequal := congrArg UInt32.toNat hnew
    rw [UInt32.toNat_ofNat_of_lt' (Args.newVersion_lt hversion l.flash), Args.newVersion, hnone,
      Option.getD_none] at hequal
    exact nextVersion_ne _ hequal.symm

/-- A tool that finds its files in a directory. -/
def inDirectory : Args where
  info := false
  version := none
  slot := none
  file := none
  dir := fun _ => some vectorsOnly

theorem flashMain_installs_inDirectory :
    ∃ l' m, Returns (flashMain Channel.bytewise 0 inDirectory)
        ⟨Board.blank.flash, protocolInit, [], []⟩ 0 l' ∧
      metadataRead l'.flash = some m ∧ m.active = .b ∧ (m.slot .b).version ≠ 0 := by
  obtain ⟨l', m, hreturns, -, -, hread, hactive, -, -, hversion, -⟩ :=
    flashMain_installs Channel.bytewise_reliable (l := ⟨Board.blank.flash, protocolInit, [], []⟩)
      rfl (.inl rfl) rfl (by rw [Board.blank_counter]; decide) 0 (rfl : inDirectory.info = false)
      rfl (by decide : vectorsOnly ≠ []) (by decide) (fun _ h => by cases h)
  rw [Board.blank_freeSlot] at hactive hversion
  have hinfo : infoVersion Board.blank.flash = 0 := by
    rw [infoVersion, show metadataRead Board.blank.flash = none from metadataRead_erased]
    rfl
  exact ⟨l', m, hreturns, hread, hactive, hinfo ▸ hversion rfl⟩

end Run

end OtaBoot.Host
