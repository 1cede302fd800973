import OtaBoot.Undisturbed

/-!
# Undisturbed boots

What a boot does when nothing goes wrong, read off the ledger, and the histories
of a board that are put together from boots and transfers: its first update, the
first attempt at the image, and an update of the other slot before it.
-/

namespace OtaBoot

open Storage

namespace Board

/-! ## Boots -/

/-- What an undisturbed boot leads to. -/
theorem step_boot (flash : Flash) (otaRequest : Bool) (start : UInt32) :
    step ⟨flash, .reset⟩ (.boot otaRequest start []) =
      match bootDecision flash with
      | .park => ⟨flash, booted start (.updateMode 0 none)⟩
      | .run m => ⟨flash, booted start (.updateMode (listenMs otaRequest) (some m.active))⟩
      | .attempt m =>
          ⟨completeImage flash (attemptRecord m),
            booted start (.updateMode (listenMs otaRequest) (some m.active))⟩
      | .rollback m =>
          ⟨completeImage flash (rollbackRecord m), booted start (.jump m.active.other)⟩ := by
  -- in a calm climate each decision has one effect
  obtain ⟨boot, ⟨state, faults, calls⟩, hrun, heffect⟩ :=
    (bootMain_triple (c := .calm) flash (fun _ _ => trivial) otaRequest).run_calm
  change settle (booted start) ((bootMain otaRequest).run ⟨flash, [], []⟩) = _
  rw [hrun]
  cases heffect with
  | parked hdecision | ran hdecision | rolledBack hdecision => rw [hdecision]; rfl
  | attempted hdecision hstopped hquiet =>
      rw [hdecision]
      obtain rfl := hquiet Climate.calm_reportsNoError
      rfl
  | rollbackFailed _ _ hnoisy => exact absurd Climate.calm_reportsNoError hnoisy

end Board

/-! ## Decisions read off the ledger -/

section Boots

variable {flash : Flash} {l : Ledger} {image : List UInt8}

/-- A slot holds an image that can be run, and the ledger describes it. -/
structure Ledger.Describes (l : Ledger) (flash : Flash) (s : Slot) (image : List UInt8) : Prop where
  sendable : Sendable image
  size : (l.slot s).size = UInt32.ofNat image.length
  crc32 : (l.slot s).crc32 = crc32Compute image
  content : flash.read s.addr.toNat image.length = image
  bootable : slotLooksBootable flash s.addr = true

theorem Ledger.Describes.intact {m : Metadata} {s : Slot}
    (h : m.ledger.Describes flash s image) : imageIsIntact flash m s = true := by
  have hsize : (m.slot s).size = UInt32.ofNat image.length := h.size
  have hcrc : (m.slot s).crc32 = crc32Compute image := h.crc32
  have hbounds : ¬ (UInt32.ofNat image.length = 0 ∨ UInt32.ofNat image.length > slotSize) := by
    have hshort := h.sendable.fits
    rw [not_or, UInt32.not_lt, UInt32.le_iff_toNat_le, h.sendable.toNat_size, toNat_slotSize]
    exact ⟨h.sendable.size_ne_zero, by omega⟩
  simp only [imageIsIntact, hsize, hcrc, hbounds, h.bootable, h.sendable.toNat_size, h.content,
    if_false, not_true_eq_false, decide_true]

theorem Ledger.Describes.congr {l' : Ledger} {flash' : Flash} {s : Slot}
    (h : l.Describes flash s image) (hslot : l'.slot s = l.slot s)
    (hagree : Memory.AgreeOn s.addr.toNat 491520 flash' flash) : l'.Describes flash' s image := by
  have hshort := h.sendable.fits
  refine ⟨h.sendable, hslot ▸ h.size, hslot ▸ h.crc32, ?_, ?_⟩
  · rw [(hagree.mono (Nat.le_refl _) (by omega)).read_eq, h.content]
  · rw [slotLooksBootable_congr (hagree.mono (Nat.le_refl _) (by omega)), h.bootable]

theorem bootDecision_of_read {m : Metadata} (h : metadataRead flash = some m) :
    bootDecision flash =
      if (m.slot m.active).state = stateValid then
        if imageIsIntact flash m m.active then .run m else .park
      else if (m.slot m.active).state = stateTesting then
        if m.bootFailCount ≥ maxBootFailures then
          if (m.slot m.active.other).state = stateEmpty ∨ ¬ imageIsIntact flash m m.active.other
          then .park else .rollback m
        else if imageIsIntact flash m m.active then .attempt m
        else .park
      else .park := by
  simp only [bootDecision, h]

theorem bootDecision_attempt (hl : ledgerAt flash = some l)
    (hstate : (l.slot l.active).state = stateTesting) (hcount : l.bootFailCount < maxBootFailures)
    (himage : l.Describes flash l.active image) :
    ∃ m, metadataRead flash = some m ∧ m.ledger = l ∧ bootDecision flash = .attempt m := by
  obtain ⟨m, hread, rfl⟩ := ledgerAt_eq_some hl
  have htesting : (m.slot m.active).state = stateTesting := hstate
  have hnotValid : ¬ (m.slot m.active).state = stateValid := by rw [htesting]; decide
  have hbelow : ¬ m.bootFailCount ≥ maxBootFailures := UInt8.not_le.mpr hcount
  have hintact : imageIsIntact flash m m.active = true := himage.intact
  refine ⟨m, hread, rfl, ?_⟩
  rw [bootDecision_of_read hread, if_neg hnotValid, if_pos htesting, if_neg hbelow, if_pos hintact]

theorem bootDecision_rollback (hl : ledgerAt flash = some l)
    (hstate : (l.slot l.active).state = stateTesting) (hcount : l.bootFailCount ≥ maxBootFailures)
    (hother : (l.slot l.active.other).state ≠ stateEmpty)
    (himage : l.Describes flash l.active.other image) :
    ∃ m, metadataRead flash = some m ∧ m.ledger = l ∧ bootDecision flash = .rollback m := by
  obtain ⟨m, hread, rfl⟩ := ledgerAt_eq_some hl
  have htesting : (m.slot m.active).state = stateTesting := hstate
  have hnotValid : ¬ (m.slot m.active).state = stateValid := by rw [htesting]; decide
  have hreached : m.bootFailCount ≥ maxBootFailures := hcount
  refine ⟨m, hread, rfl, ?_⟩
  rw [bootDecision_of_read hread, if_neg hnotValid, if_pos htesting, if_pos hreached, if_neg]
  rw [not_or, Decidable.not_not]
  exact ⟨hother, himage.intact⟩

/-- A write that ran to its end. -/
theorem completeImage_written {src : Metadata} (hcounter : counterAt flash < 2 ^ 32 - 1)
    (hsound : src.Sound) (hledger : src.ledger = l) :
    ledgerAt (completeImage flash src) = some l ∧
      counterAt (completeImage flash src) = counterAt flash + 1 ∧
      ∀ s : Slot, Memory.AgreeOn s.addr.toNat 491520 (completeImage flash src) flash := by
  refine ⟨?_, counterAt_completeImage hcounter hsound, fun s => ?_⟩
  · rw [ledgerAt_completeImage (counterOk_iff.mpr hcounter) hsound, hledger]
  · have hbounds := s.addr_bounds
    exact (completeImage_stopped _ _).agreeOn (by omega)

/-- One more attempt at an image on trial. -/
theorem Board.boot_attempt (otaRequest : Bool) (start : UInt32) (hl : ledgerAt flash = some l)
    (hstate : (l.slot l.active).state = stateTesting) (hcount : l.bootFailCount < maxBootFailures)
    (himage : l.Describes flash l.active image) (hcounter : counterAt flash < 2 ^ 32 - 1) :
    ∃ flash', Board.step ⟨flash, .reset⟩ (.boot otaRequest start []) =
        ⟨flash', Board.booted start (.updateMode (listenMs otaRequest) (some l.active))⟩ ∧
      ledgerAt flash' = some (Edit.attempt.apply l) ∧ counterAt flash' = counterAt flash + 1 ∧
      ∀ s : Slot, Memory.AgreeOn s.addr.toNat 491520 flash' flash := by
  obtain ⟨m, hread, rfl, hdecision⟩ := bootDecision_attempt hl hstate hcount himage
  have hsound := attemptRecord_sound (metadataRead_sound hread)
  refine ⟨_, ?_, completeImage_written hcounter hsound (attemptRecord_ledger m)⟩
  rw [Board.step_boot, hdecision]
  rfl

/-- The rejection of an image that has had its attempts. -/
theorem Board.boot_rollback (otaRequest : Bool) (start : UInt32) (hl : ledgerAt flash = some l)
    (hstate : (l.slot l.active).state = stateTesting) (hcount : l.bootFailCount ≥ maxBootFailures)
    (hother : (l.slot l.active.other).state ≠ stateEmpty)
    (himage : l.Describes flash l.active.other image) (hcounter : counterAt flash < 2 ^ 32 - 1) :
    ∃ flash', Board.step ⟨flash, .reset⟩ (.boot otaRequest start []) =
        ⟨flash', .app l.active.other⟩ ∧
      ledgerAt flash' = some (Edit.rollback.apply l) ∧ counterAt flash' = counterAt flash + 1 ∧
      ∀ s : Slot, Memory.AgreeOn s.addr.toNat 491520 flash' flash := by
  obtain ⟨m, hread, rfl, hdecision⟩ := bootDecision_rollback hl hstate hcount hother himage
  have hsound := rollbackRecord_sound (metadataRead_sound hread)
  refine ⟨_, ?_, completeImage_written hcounter hsound (rollbackRecord_ledger m)⟩
  rw [Board.step_boot, hdecision]
  rfl

/-- A completed transfer ends in a restart. -/
theorem Board.step_pollEnd_complete (u : Session) {proto : Protocol} (nowMs : UInt32)
    {budget : Nat} {received : Bool} (hstate : proto.state = .complete) :
    Board.step ⟨flash, .update (u.draining proto nowMs budget received)⟩ .pollEnd =
      ⟨flash, .reset⟩ := by
  have htail : (proto.pollTail nowMs received).state = .complete := by
    rw [(pollTail_tailOf proto nowMs received).kept (by rw [hstate]; decide), hstate]
  change (⟨flash, Board.polled _ _ _⟩ : Board) = _
  unfold Board.polled
  simp only [Session.draining, updateVerdict, htail, if_true]

/-- Past the listen window an idle manager lets the image start. -/
theorem Board.step_pollEnd_idle (u : Session) {proto : Protocol} (nowMs : UInt32) {budget : Nat}
    {received : Bool} {s : Slot} (hstate : proto.state = .idle) (hnext : u.next = some s)
    (hlimit : 0 < u.limitMs) (hlate : u.limitMs < nowMs - u.start) :
    Board.step ⟨flash, .update (u.draining proto nowMs budget received)⟩ .pollEnd =
      ⟨flash, .app s⟩ := by
  have htail : (proto.pollTail nowMs received).state = .idle := by
    rw [(pollTail_tailOf proto nowMs received).kept (by rw [hstate]; decide), hstate]
  have hnotComplete : ¬ (ProtocolState.idle = .complete) := nofun
  change (⟨flash, Board.polled _ _ _⟩ : Board) = _
  unfold Board.polled
  simp only [Session.draining, updateVerdict, htail, hnotComplete, hnext, hlimit, hlate, if_false,
    and_self, if_true]

/-- The first update of a board, up to the restart after it. -/
def firstUpdate (image : List UInt8) (ver : UInt32) : List Event :=
  [.boot false 0 [], .poll 0] ++ installEvents .b image ver ++ [.pollEnd]

theorem firstUpdate_plain {e : Event} (h : e ∈ firstUpdate image ver) : e.Plain := by
  simp only [firstUpdate, List.cons_append, List.nil_append, List.mem_cons, List.mem_append,
    List.not_mem_nil, or_false] at h
  rcases h with rfl | rfl | h | rfl
  · exact ⟨rfl, id⟩
  · exact ⟨rfl, id⟩
  · exact installEvents_plain h
  · exact ⟨rfl, id⟩

@[simp] theorem length_firstUpdate (image : List UInt8) (ver : UInt32) :
    (firstUpdate image ver).length = 52 + image.length := by
  simp only [firstUpdate, List.length_append, List.length_cons, List.length_nil,
    length_installEvents]
  omega

theorem Board.blank_bounded : Board.blank.Bounded := Board.bounded_reset _

theorem Board.blank_read : metadataRead Board.blank.flash = none := metadataRead_erased

theorem Board.blank_freeSlot : freeSlot Board.blank.flash = .b := by
  rw [freeSlot, blank_read]
  rfl

theorem Board.blank_ledger : ledgerOrBlank Board.blank.flash = .blank := by
  rw [ledgerOrBlank, ledgerAt, blank_read]
  rfl

theorem Board.blank_counter : counterAt Board.blank.flash = 0 := by
  rw [counterAt, blank_read]
  rfl

theorem Board.blank_decision : bootDecision Board.blank.flash = .park := by
  simp only [bootDecision, blank_read]

/-- The session of a boot that waits for an update. -/
def waitingSession : Session := ⟨0, 0, none, protocolInit, none⟩

/-- A board without metadata waits for an update. -/
theorem Board.run_waiting :
    Board.blank.run [.boot false 0 [], .poll 0] =
      ⟨Board.blank.flash, .update (waitingSession.draining protocolInit 0 512 false)⟩ := by
  have hboot : Board.step Board.blank (.boot false 0 []) = _ :=
    Board.step_boot Board.blank.flash false 0
  rw [blank_decision] at hboot
  rw [Board.run_cons, hboot]
  rfl

/-- A board without metadata takes its first image into slot B. -/
theorem Board.run_firstUpdate (himage : OneBlock image) (ver : UInt32) :
    ∃ flash, Board.blank.run (firstUpdate image ver) = ⟨flash, .reset⟩ ∧
      ledgerAt flash = some ((Edit.install .b (UInt32.ofNat image.length) (crc32Compute image)
        ver).apply .blank) ∧
      counterAt flash = 2 ∧ flash.read Slot.b.addr.toNat image.length = image := by
  have hshort := himage.short
  obtain ⟨flash, proto, hrun, hinstalled, -, hcomplete, -⟩ :=
    Board.run_install Board.blank.flash waitingSession 0 false himage ver
      (by rw [blank_counter]; decide) (.inl rfl) Transfer.Bounded.init
      (show 49 + image.length ≤ 512 by omega)
  have hledger := hinstalled.ledger
  have hcontent := hinstalled.content
  rw [blank_freeSlot] at hrun hledger hcontent
  rw [blank_ledger] at hledger
  refine ⟨flash, ?_, hledger, by rw [hinstalled.counter, blank_counter], hcontent⟩
  rw [firstUpdate, Board.run_append, Board.run_append, run_waiting, hrun]
  exact Board.step_pollEnd_complete _ _ hcomplete

/-- The first update stands for two edits. -/
theorem Board.edits_firstUpdate {allowed : Ledger → Edit → Prop} (himage : OneBlock image)
    (ver : UInt32)
    (hstart : allowed .blank (.start (UInt32.ofNat image.length) (crc32Compute image) ver))
    (hinstall : allowed ((Edit.start (UInt32.ofNat image.length) (crc32Compute image) ver).apply
      .blank) (.install .b (UInt32.ofNat image.length) (crc32Compute image) ver)) :
    Transition.Guarded Board.step (Board.Edits allowed) Board.blank (firstUpdate image ver) := by
  have hshort := himage.short
  have hinstalled : Transition.Guarded Board.step (Board.Edits allowed)
      ⟨Board.blank.flash, .update (waitingSession.draining protocolInit 0 512 false)⟩
      (installEvents (freeSlot Board.blank.flash) image ver) :=
    Board.edits_install Board.blank.flash waitingSession 0 false himage ver
      (by rw [blank_counter]; decide) (.inl rfl) Transfer.Bounded.init
      (show 49 + image.length ≤ 512 by omega) (by rwa [blank_ledger])
      (by rwa [blank_ledger, blank_freeSlot])
  rw [blank_freeSlot] at hinstalled
  rw [firstUpdate, Transition.guarded_append, Transition.guarded_append, ← Board.run,
    run_waiting]
  refine ⟨⟨⟨fun edit hedit => ?_, fun edit hedit => ?_, trivial⟩, hinstalled⟩,
    fun edit hedit => ?_, trivial⟩
  · have hpark : (bootDecision Board.blank.flash).edit = some edit := hedit
    rw [blank_decision] at hpark
    cases hpark
  · cases hedit
  · cases hedit

end Boots

/-! ## A small image -/

/-- A stack pointer in RAM and a reset handler in flash. -/
def vectorsOnly : List UInt8 := [0x00, 0x00, 0x00, 0x20, 0x01, 0x80, 0x00, 0x08]

theorem vectorsOnly_oneBlock : OneBlock vectorsOnly := by
  constructor <;> decide

/-- The vectors are all that a slot is looked at for. -/
theorem looksBootable_vectorsOnly {flash : Flash} {s : Slot}
    (h : flash.read s.addr.toNat vectorsOnly.length = vectorsOnly) :
    slotLooksBootable flash s.addr = true := by
  have hbounds := s.addr_bounds
  have hcell (i : Nat) (hi : i < 8) : flash (s.addr.toNat + i) = vectorsOnly[i] := by
    have hlen : i < (flash.read s.addr.toNat vectorsOnly.length).length := by
      rw [Memory.length_read]
      exact hi
    rw [← Memory.getElem_read flash s.addr.toNat vectorsOnly.length i hlen]
    exact List.getElem_of_eq h hlen
  have hreset : (s.addr + 4).toNat = s.addr.toNat + 4 := by
    rw [UInt32.toNat_add, show (4 : UInt32).toNat = 4 from rfl, Nat.mod_eq_of_lt (by omega)]
  have hsp : wordAt flash s.addr.toNat = 0x20000000 := by
    rw [wordAt, ← Nat.add_zero s.addr.toNat]
    simp only [Nat.add_assoc, Nat.zero_add]
    rw [hcell 0 (by decide), hcell 1 (by decide), hcell 2 (by decide), hcell 3 (by decide)]
    decide
  have hhandler : wordAt flash (s.addr + 4).toNat = 0x08008001 := by
    rw [wordAt, hreset]
    simp only [Nat.add_assoc, Nat.reduceAdd]
    rw [hcell 4 (by decide), hcell 5 (by decide), hcell 6 (by decide), hcell 7 (by decide)]
    decide
  simp only [slotLooksBootable, hsp, hhandler]
  decide

/-- The ledger after the first update with the vectors. -/
def firstLedger : Ledger :=
  (Edit.install .b (UInt32.ofNat vectorsOnly.length) (crc32Compute vectorsOnly) 1).apply .blank

/-- After its first update a board has an image on trial in slot B. -/
theorem Board.run_firstVectors :
    ∃ flash, Board.blank.run (firstUpdate vectorsOnly 1) = ⟨flash, .reset⟩ ∧
      ledgerAt flash = some firstLedger ∧ counterAt flash = 2 ∧
      firstLedger.Describes flash .b vectorsOnly := by
  obtain ⟨flash, hrun, hledger, hcounter, hcontent⟩ :=
    Board.run_firstUpdate vectorsOnly_oneBlock 1
  have hslot : firstLedger.slot .b =
      ⟨UInt32.ofNat vectorsOnly.length, crc32Compute vectorsOnly, 1, stateTesting⟩ :=
    slot_install _ _ _ _ _
  exact ⟨flash, hrun, hledger, hcounter, ⟨vectorsOnly_oneBlock.sendable, by rw [hslot],
    by rw [hslot], hcontent, looksBootable_vectorsOnly hcontent⟩⟩

/-- The session of a boot that listens before it runs an image. -/
def trialSession (s : Slot) : Session := ⟨2000, 0, some s, protocolInit, none⟩

/-- The first update, and the boot after it, up to a late poll. -/
def firstTrial : List Event := firstUpdate vectorsOnly 1 ++ [.boot false 0 [], .poll 3000]

/-- The image is attempted for the first time, and the window is over. -/
theorem Board.run_firstTrial :
    ∃ flash, Board.blank.run firstTrial =
        ⟨flash, .update ((trialSession .b).draining protocolInit 3000 512 false)⟩ ∧
      ledgerAt flash = some (Edit.attempt.apply firstLedger) ∧ counterAt flash = 3 ∧
      firstLedger.Describes flash .b vectorsOnly := by
  obtain ⟨flash₁, hrun₁, hledger₁, hcounter₁, himage₁⟩ := Board.run_firstVectors
  obtain ⟨flash₂, hboot, hledger₂, hcounter₂, hslots⟩ :=
    Board.boot_attempt false 0 hledger₁ (congrArg Descriptor.state (slot_install _ _ _ _ _))
      (by decide : (0 : UInt8) < 3) himage₁ (by rw [hcounter₁]; decide)
  refine ⟨flash₂, ?_, hledger₂, by omega, himage₁.congr rfl (hslots .b)⟩
  rw [firstTrial, Board.run_append, hrun₁, Board.run_cons, hboot]
  rfl

/-- While the first image awaits its start, the other slot is updated. -/
def secondInstall : List Event := firstTrial ++ installEvents .a vectorsOnly 2

def secondLedger : Ledger :=
  (Edit.install .a (UInt32.ofNat vectorsOnly.length) (crc32Compute vectorsOnly) 2).apply
    (Edit.attempt.apply firstLedger)

theorem firstTrial_plain {e : Event} (h : e ∈ firstTrial) : e.Plain := by
  simp only [firstTrial, List.mem_append, List.mem_cons, List.not_mem_nil, or_false] at h
  rcases h with h | rfl | rfl
  · exact firstUpdate_plain h
  · exact ⟨rfl, id⟩
  · exact ⟨rfl, id⟩

theorem secondInstall_plain {e : Event} (h : e ∈ secondInstall) : e.Plain := by
  rcases List.mem_append.mp h with h | h
  · exact firstTrial_plain h
  · exact installEvents_plain h

/-- Both slots hold an image on trial. -/
theorem Board.run_secondInstall :
    ∃ flash proto, Board.blank.run secondInstall =
        ⟨flash, .update ((trialSession .b).draining proto 3000 455 true)⟩ ∧
      ledgerAt flash = some secondLedger ∧ counterAt flash = 5 ∧
      secondLedger.Describes flash .a vectorsOnly ∧
      proto.rx.state = .magic0 ∧ proto.state = .complete ∧ proto.Bounded := by
  obtain ⟨flash, hrun, hledger, hcounter, -⟩ := Board.run_firstTrial
  have hfree : freeSlot flash = .a := by
    rw [freeSlot_eq, ledgerOrBlank_of_ledgerAt hledger]
    rfl
  obtain ⟨flash', proto, hinstall, hinstalled, hhunting, hcomplete, hb⟩ :=
    Board.run_install flash (trialSession .b) 3000 false vectorsOnly_oneBlock 2
      (by rw [hcounter]; decide) (.inl rfl) Transfer.Bounded.init (by decide : _ ≤ 512)
  have hledger' := hinstalled.ledger
  have hcontent := hinstalled.content
  rw [hfree] at hinstall hledger' hcontent
  rw [ledgerOrBlank_of_ledgerAt hledger] at hledger'
  have hslot : secondLedger.slot .a =
      ⟨UInt32.ofNat vectorsOnly.length, crc32Compute vectorsOnly, 2, stateTesting⟩ :=
    slot_install _ _ _ _ _
  refine ⟨flash', proto, by rw [secondInstall, Board.run_append, hrun, hinstall]; rfl, hledger',
    by rw [hinstalled.counter, hcounter], ?_, hhunting, hcomplete, hb⟩
  exact ⟨vectorsOnly_oneBlock.sendable, by rw [hslot], by rw [hslot], hcontent,
    looksBootable_vectorsOnly hcontent⟩

/-- That image, too, is put on trial by the last byte of its transfer. -/
theorem Board.run_secondInstall_makes :
    ∃ front e, secondInstall = front ++ [e] ∧
      (Board.blank.run front).Makes e
        (.install .a (UInt32.ofNat vectorsOnly.length) (crc32Compute vectorsOnly) 2) := by
  obtain ⟨flash, hrun, hledger, hcounter, -⟩ := Board.run_firstTrial
  have hfree : freeSlot flash = .a := by
    rw [freeSlot_eq, ledgerOrBlank_of_ledgerAt hledger]
    rfl
  obtain ⟨front, e, hsplit, hmakes⟩ :=
    Board.run_install_makes flash (trialSession .b) 3000 false vectorsOnly_oneBlock 2
      (by rw [hcounter]; decide) (.inl rfl) Transfer.Bounded.init (by decide : _ ≤ 512)
  rw [hfree] at hsplit hmakes
  refine ⟨firstTrial ++ front, e, by rw [secondInstall, hsplit, List.append_assoc], ?_⟩
  rw [Board.run_append, hrun]
  exact hmakes

/-! ## A board that was prepared -/

/-- Two images in an otherwise erased flash. -/
def twoImages (imageA imageB : List UInt8) : Flash :=
  Memory.store (Memory.store (fun _ => erasedByte) Slot.a.addr.toNat imageA)
    Slot.b.addr.toNat imageB

/-- Two images and a record that describes them. -/
def stocked (imageA imageB : List UInt8) (src : Metadata) : Flash :=
  completeImage (twoImages imageA imageB) src

section Stocked

variable {imageA imageB : List UInt8} {src : Metadata}

theorem stocked_agreeOn (s : Slot) :
    Memory.AgreeOn s.addr.toNat 491520 (stocked imageA imageB src) (twoImages imageA imageB) := by
  have hbounds := s.addr_bounds
  exact (completeImage_stopped _ _).agreeOn (by omega)

theorem stocked_read (hA : imageA.length ≤ 491520) (hB : imageB.length ≤ 491520)
    (hsrc : src.Sound) :
    ∃ m, metadataRead (stocked imageA imageB src) = some m ∧ m.ledger = src.ledger ∧
      counterAt (stocked imageA imageB src) = 1 := by
  have haddrA : Slot.a.addr.toNat = 0x08008000 := rfl
  have haddrB : Slot.b.addr.toNat = 0x08080000 := rfl
  have hagree : Memory.AgreeOn 0x080FF000 4096 (twoImages imageA imageB) (fun _ => erasedByte) :=
    (Memory.store_agreeOn _ _ _ (.inr (by omega))).trans
      (Memory.store_agreeOn _ _ _ (.inr (by omega)))
  have hnone : metadataRead (twoImages imageA imageB) = none :=
    (metadataRead_congr hagree).trans metadataRead_erased
  have hzero : counterAt (twoImages imageA imageB) = 0 := by
    rw [counterAt, hnone]
    rfl
  have hcounter : counterAt (twoImages imageA imageB) < 2 ^ 32 - 1 := by
    rw [hzero]
    decide
  refine ⟨_, metadataRead_completeImage (counterOk_iff.mpr hcounter) hsrc,
    writtenRecord_ledger _ _, ?_⟩
  rw [stocked, counterAt_completeImage hcounter hsrc, hzero]

theorem stocked_slotA (hA : imageA.length ≤ 491520) :
    (stocked imageA imageB src).read Slot.a.addr.toNat imageA.length = imageA := by
  have hslotB : Memory.AgreeOn Slot.a.addr.toNat 491520 (twoImages imageA imageB) _ :=
    Memory.store_agreeOn _ _ _ (.inl (by decide))
  rw [(((stocked_agreeOn .a).trans hslotB).mono (Nat.le_refl _) (by omega)).read_eq,
    Memory.read_store_self]

end Stocked

/-- The descriptor of a confirmed image. -/
def confirmedInfo : SlotInfo :=
  ⟨UInt32.ofNat vectorsOnly.length, crc32Compute vectorsOnly, 1, stateValid, 0, 0, 0⟩

/-- Both images confirmed, slot B active. -/
def bothConfirmed : Metadata :=
  { Metadata.zero with slotA := confirmedInfo, slotB := confirmedInfo, activeSlot := 1 }

theorem bothConfirmed_sound : bothConfirmed.Sound :=
  ⟨by decide, fun s => by cases s <;> exact (by decide : stateValid ≤ stateValid),
    fun s => by cases s <;> exact (by decide : UInt32.ofNat vectorsOnly.length ≤ slotSize)⟩

theorem confirmedInfo_describes {flash : Flash} {l : Ledger} {s : Slot}
    (hslot : l.slot s = confirmedInfo.descriptor)
    (hcontent : flash.read s.addr.toNat vectorsOnly.length = vectorsOnly) :
    l.Describes flash s vectorsOnly := by
  refine ⟨vectorsOnly_oneBlock.sendable, ?_, ?_, hcontent, looksBootable_vectorsOnly hcontent⟩
  · rw [hslot, SlotInfo.descriptor, confirmedInfo]
  · rw [hslot, SlotInfo.descriptor, confirmedInfo]

end OtaBoot
