import OtaBoot.Loading

/-!
# Undisturbed transfers

What a transfer does when nothing goes wrong, block after block, in terms of the
ledger and of what is in the slot; and a transfer of one block as a run of the
board.
-/

namespace OtaBoot

open Storage LittleEndian
open Protocol (startRecord endRecord)

/-! ## Transfers under way -/

/-- Beginning a transfer and putting its image on trial edits the ledger as
putting it on trial does. -/
theorem install_start (l : Ledger) (size crc ver : UInt32) :
    (Edit.install l.active.other size crc ver).apply ((Edit.start size crc ver).apply l) =
      (Edit.install l.active.other size crc ver).apply l := by
  refine Ledger.ext rfl rfl (funext fun s => ?_)
  by_cases h : s = l.active.other <;> simp [Edit.apply, Ledger.describe, h]

/-- Part way through: so many bytes of the image are in the free slot, what is
left of their page is erased, and the ledger says that the image is being
received. `seq` is the sequence number of the next block. -/
structure Underway (flash : Flash) (image : List UInt8) (ver : UInt32) (sent : Nat) (seq : UInt16)
    (flash' : Flash) (t' : Transfer) : Prop where
  ledger : ledgerAt flash' = some ((Edit.start (UInt32.ofNat image.length) (crc32Compute image)
    ver).apply (ledgerOrBlank flash))
  counter : counterAt flash' = counterAt flash + 1
  content : flash'.read (freeSlot flash).addr.toNat sent = image.take sent
  blank : sent % 2048 ≠ 0 →
    flash'.Blank ((freeSlot flash).addr.toNat + sent) (2048 - sent % 2048)
  other : Memory.AgreeOn (freeSlot flash).other.addr.toNat 491520 flash' flash
  state : t'.state = .receiving
  target : t'.targetSlot = freeSlot flash
  fwSize : t'.fwSize = UInt32.ofNat image.length
  fwCrc32 : t'.fwCrc32 = crc32Compute image
  fwVersion : t'.fwVersion = ver
  written : t'.bytesWritten.toNat = sent
  fits : sent ≤ image.length
  aligned : sent % 8 = 0
  expectedSeq : t'.expectedSeq = seq
  lastSeq : t'.lastSeq ≠ seq

/-- What a whole transfer leaves: the image is in the slot and on trial. -/
structure Installed (flash : Flash) (image : List UInt8) (ver : UInt32) (flash' : Flash) :
    Prop where
  ledger : ledgerAt flash' = some ((Edit.install (freeSlot flash) (UInt32.ofNat image.length)
    (crc32Compute image) ver).apply (ledgerOrBlank flash))
  counter : counterAt flash' = counterAt flash + 2
  content : flash'.read (freeSlot flash).addr.toNat image.length = image
  other : Memory.AgreeOn (freeSlot flash).other.addr.toNat 491520 flash' flash

section Transfer

variable {flash flash' : Flash} {image block : List UInt8} {ver : UInt32} {t t' : Transfer}
  {sent : Nat} {seq : UInt16}

/-- An accepted START_UPDATE. -/
theorem underway_start (himage : Sendable image) (ver : UInt32)
    (hcounter : counterAt flash < 2 ^ 32 - 1) (seq : UInt16) :
    Underway flash image ver 0 (seq + 1)
      ((Action.start seq (UInt32.ofNat image.length) (crc32Compute image) ver).image flash t)
      ((Action.start seq (UInt32.ofNat image.length) (crc32Compute image) ver).success flash
        t) := by
  have hbounds := (freeSlot flash).other.addr_bounds
  have hsound := startRecord_sound flash (freeSlot flash) (crc32Compute image) ver himage.size_le
  exact {
    ledger := ledgerAt_startRecord (counterOk_iff.mpr hcounter) _ ver himage.size_le
    counter := counterAt_completeImage hcounter hsound
    content := rfl
    blank := fun h => absurd rfl h
    other := (completeImage_stopped _ _).agreeOn (by omega)
    state := rfl
    target := rfl
    fwSize := rfl
    fwCrc32 := rfl
    fwVersion := rfl
    written := rfl
    fits := Nat.zero_le _
    aligned := rfl
    expectedSeq := rfl
    lastSeq := seq_ne_succ seq }

namespace Underway

/-- What it says of the slot. -/
theorem loading (h : Underway flash image ver sent seq flash' t') :
    Loading (freeSlot flash) image sent seq flash' t' where
  content := h.content
  rest := by
    intro hrest
    rw [h.written] at hrest ⊢
    rw [h.target]
    exact h.blank hrest
  state := h.state
  target := h.target
  fwSize := h.fwSize
  written := h.written
  fits := h.fits
  aligned := h.aligned
  expectedSeq := h.expectedSeq
  lastSeq := h.lastSeq

theorem bounded (h : Underway flash image ver sent seq flash' t') (himage : Sendable image) :
    t'.Bounded :=
  h.loading.bounded himage

theorem action_data (h : Underway flash image ver sent seq flash' t') (himage : Sendable image)
    (hblock : Next image sent block) :
    t'.action flash' cmdData seq block = .store seq block :=
  h.loading.action_data himage hblock

theorem ready (h : Underway flash image ver sent seq flash' t') (himage : Sendable image)
    (hblock : Next image sent block) : (Action.store seq block).Ready flash' t' :=
  h.loading.ready himage hblock

/-- A block is stored. -/
theorem store (h : Underway flash image ver sent seq flash' t') (himage : Sendable image)
    (hblock : Next image sent block) :
    Underway flash image ver (sent + block.length) (seq + 1)
      ((Action.store seq block).image flash' t') ((Action.store seq block).success flash' t') := by
  have hloading := h.loading.store himage hblock
  have hchanged :
      ChangedWithin (freeSlot flash) flash' ((Action.store seq block).image flash' t') := by
    have hstopped : t'.BlockStopped flash' block ((Action.store seq block).image flash' t') :=
      .inr (.full _ _ hblock.aligned)
    exact h.target ▸ hstopped.changedWithin (h.bounded himage) (h.loading.continues himage hblock)
  exact {
    ledger := hchanged.ledgerAt.trans h.ledger
    counter := hchanged.counterAt.trans h.counter
    content := hloading.content
    blank := hloading.blank
    other := (hchanged.other (freeSlot flash).other_ne (Nat.le_refl _)).trans h.other
    state := hloading.state
    target := hloading.target
    fwSize := hloading.fwSize
    fwCrc32 := h.fwCrc32
    fwVersion := h.fwVersion
    written := hloading.written
    fits := hloading.fits
    aligned := hloading.aligned
    expectedSeq := hloading.expectedSeq
    lastSeq := hloading.lastSeq }

/-- After the last block, END_UPDATE is accepted. -/
theorem action_end (h : Underway flash image ver image.length seq flash' t')
    (himage : Sendable image) (seq' : UInt16) :
    t'.action flash' cmdEndUpdate seq' [] = .finish seq' :=
  h.loading.action_end himage h.fwCrc32 seq'

theorem edit_end (h : Underway flash image ver sent seq flash' t') (seq' : UInt16) :
    (Action.finish seq').edit t' = some (.install (freeSlot flash) (UInt32.ofNat image.length)
      (crc32Compute image) ver) := by
  rw [Action.edit, h.target, h.fwSize, h.fwCrc32, h.fwVersion]

theorem installed (h : Underway flash image ver image.length seq flash' t')
    (himage : Sendable image) (hcounter : counterAt flash < 2 ^ 32 - 2) (seq' : UInt16) :
    Installed flash image ver ((Action.finish seq').image flash' t') := by
  have hfits := himage.fits
  have hbounds := (freeSlot flash).addr_bounds
  have hbounds' := (freeSlot flash).other.addr_bounds
  have hcounter' : counterAt flash' < 2 ^ 32 - 1 := by
    rw [h.counter]
    omega
  have hsound := endRecord_sound flash' t'.targetSlot t'.fwCrc32 t'.fwVersion
    (h.fwSize ▸ himage.size_le)
  have hstopped := completeImage_stopped flash'
    (endRecord flash' t'.targetSlot t'.fwSize t'.fwCrc32 t'.fwVersion)
  refine ⟨?_, (counterAt_completeImage hcounter' hsound).trans (by rw [h.counter]), ?_,
    (hstopped.agreeOn (by omega)).trans h.other⟩
  · refine (ledgerAt_completeImage (counterOk_iff.mpr hcounter') hsound).trans ?_
    rw [endRecord_ledger, ledgerOrBlank_of_ledgerAt h.ledger, h.target, h.fwSize, h.fwCrc32,
      h.fwVersion, freeSlot_eq, install_start]
  · refine (hstopped.agreeOn (by omega)).read_eq.trans ?_
    rw [h.content, List.take_length]

end Underway

end Transfer

/-! ## A transfer of one block -/

/-- An image that fits into one block. -/
structure OneBlock (image : List UInt8) : Prop where
  nonempty : 0 < image.length
  aligned : image.length % 8 = 0
  short : image.length ≤ 256

theorem OneBlock.sendable {image : List UInt8} (h : OneBlock image) : Sendable image :=
  ⟨h.nonempty, h.aligned, by have := h.short; omega⟩

theorem OneBlock.next {image : List UInt8} (h : OneBlock image) : Underway.Next image 0 image :=
  ⟨h.nonempty, h.aligned, by have := h.short; omega, List.take_length⟩

/-- The frames of a transfer of one block, up to and including the block. -/
def transferEvents (slot : Slot) (image : List UInt8) (ver : UInt32) : List Event :=
  frameEvents cmdStartUpdate 0
      (startPayload (UInt32.ofNat image.length) (crc32Compute image) ver slot) ++
    frameEvents cmdData 1 image

/-- The frames of a whole transfer of one block. -/
def installEvents (slot : Slot) (image : List UInt8) (ver : UInt32) : List Event :=
  transferEvents slot image ver ++ frameEvents cmdEndUpdate 2 []

theorem frameEvents_plain {cmd : UInt8} {seq : UInt16} {data : List UInt8} {e : Event}
    (h : e ∈ frameEvents cmd seq data) : e.Plain := by
  obtain ⟨byte, -, rfl⟩ := List.mem_map.mp h
  exact ⟨rfl, id⟩

theorem installEvents_plain {slot : Slot} {image : List UInt8} {ver : UInt32} {e : Event}
    (h : e ∈ installEvents slot image ver) : e.Plain := by
  simp only [installEvents, transferEvents, List.mem_append] at h
  rcases h with (h | h) | h <;> exact frameEvents_plain h

@[simp] theorem length_frameEvents (cmd : UInt8) (seq : UInt16) (data : List UInt8) :
    (frameEvents cmd seq data).length = 11 + data.length := by
  rw [frameEvents, List.length_map, Receiver.length_sendFrame]

@[simp] theorem length_installEvents (slot : Slot) (image : List UInt8) (ver : UInt32) :
    (installEvents slot image ver).length = 49 + image.length := by
  simp only [installEvents, transferEvents, List.length_append, length_frameEvents,
    length_startPayload, List.length_nil]
  omega

namespace Board

variable (flash : Flash) (u : Session) {proto : Protocol} (nowMs : UInt32) {budget : Nat}
  (received : Bool) {image : List UInt8}

theorem run_transfer (himage : OneBlock image) (ver : UInt32)
    (hcounter : counterAt flash < 2 ^ 32 - 1) (hhunting : proto.rx.Hunting)
    (hb : proto.Bounded) (hbudget : 38 + image.length ≤ budget) :
    ∃ flash' proto',
      run ⟨flash, .update (u.draining proto nowMs budget received)⟩
        (transferEvents (freeSlot flash) image ver) =
        ⟨flash', .update (u.draining proto' nowMs (budget - (38 + image.length)) true)⟩ ∧
      Underway flash image ver image.length 2 flash' proto'.toTransfer ∧
      proto'.rx.state = .magic0 := by
  have hsendable := himage.sendable
  have hlen := himage.short
  have hstart := action_start (t := proto.toTransfer) flash 0 (crc32Compute image) ver
    hsendable.size_ne_zero (UInt32.le_iff_toNat_le.mp hsendable.size_le)
  obtain ⟨proto₁, hrun₁, htransfer₁, hhunting₁⟩ := run_frame flash u nowMs received
    cmdStartUpdate 0
    (startPayload (UInt32.ofNat image.length) (crc32Compute image) ver (freeSlot flash)) hhunting
    (by simp) (by rw [length_startPayload]; omega : _ ≤ budget) hb (by rw [hstart]; trivial)
  rw [hstart] at hrun₁ htransfer₁
  have hunderway₁ := underway_start (t := proto.toTransfer) hsendable ver hcounter 0
  rw [← htransfer₁, show (0 : UInt16) + 1 = 1 from rfl] at hunderway₁
  set flash₁ := (Action.start 0 (UInt32.ofNat image.length) (crc32Compute image) ver).image flash
    proto.toTransfer with hflash₁
  have hdata := hunderway₁.action_data hsendable himage.next
  obtain ⟨proto₂, hrun₂, htransfer₂, hhunting₂⟩ := run_frame flash₁ u nowMs true
    cmdData 1 image (.inl hhunting₁) (by omega) (by omega : 11 + image.length ≤ budget - 27)
    (hunderway₁.bounded hsendable) (by rw [hdata]; exact hunderway₁.ready hsendable himage.next)
  rw [hdata] at hrun₂ htransfer₂
  have hunderway₂ := hunderway₁.store hsendable himage.next
  rw [← htransfer₂, Nat.zero_add, show (1 : UInt16) + 1 = 2 from rfl] at hunderway₂
  refine ⟨_, proto₂, ?_, hunderway₂, hhunting₂⟩
  rw [transferEvents, run_append, hrun₁]
  refine hrun₂.trans ?_
  rw [show budget - 27 - (11 + image.length) = budget - (38 + image.length) by omega]

theorem run_install (himage : OneBlock image) (ver : UInt32)
    (hcounter : counterAt flash < 2 ^ 32 - 2) (hhunting : proto.rx.Hunting)
    (hb : proto.Bounded) (hbudget : 49 + image.length ≤ budget) :
    ∃ flash' proto',
      run ⟨flash, .update (u.draining proto nowMs budget received)⟩
        (installEvents (freeSlot flash) image ver) =
        ⟨flash', .update (u.draining proto' nowMs (budget - (49 + image.length)) true)⟩ ∧
      Installed flash image ver flash' ∧
      proto'.rx.state = .magic0 ∧ proto'.state = .complete ∧ proto'.Bounded := by
  obtain ⟨flash₂, proto₂, hrun₂, hunderway, hhunting₂⟩ :=
    run_transfer flash u nowMs received himage ver (by omega) hhunting hb (by omega : _ ≤ budget)
  have hb₂ := hunderway.bounded himage.sendable
  have hend := hunderway.action_end himage.sendable 2
  obtain ⟨proto₃, hrun₃, htransfer₃, hhunting₃⟩ := run_frame flash₂ u nowMs true cmdEndUpdate 2 []
    (.inl hhunting₂) (by simp)
    (by simp only [List.length_nil]; omega : _ ≤ budget - (38 + image.length)) hb₂
    (by rw [hend]; trivial)
  rw [hend] at hrun₃ htransfer₃
  refine ⟨_, proto₃, ?_, hunderway.installed himage.sendable hcounter 2, hhunting₃,
    by rw [htransfer₃]; rfl, ?_⟩
  · rw [installEvents, run_append, hrun₂]
    refine hrun₃.trans ?_
    rw [List.length_nil, show budget - (38 + image.length) - (11 + 0) =
      budget - (49 + image.length) by omega]
  · rw [htransfer₃]
    exact ⟨hb₂.size, hb₂.written, hb₂.aligned⟩

/-- It is the last byte that puts the image on trial. -/
theorem run_install_makes (himage : OneBlock image) (ver : UInt32)
    (hcounter : counterAt flash < 2 ^ 32 - 2) (hhunting : proto.rx.Hunting)
    (hb : proto.Bounded) (hbudget : 49 + image.length ≤ budget) :
    ∃ front e, installEvents (freeSlot flash) image ver = front ++ [e] ∧
      (run ⟨flash, .update (u.draining proto nowMs budget received)⟩ front).Makes e
        (.install (freeSlot flash) (UInt32.ofNat image.length) (crc32Compute image) ver) := by
  obtain ⟨flash₂, proto₂, hrun₂, hunderway, hhunting₂⟩ :=
    run_transfer flash u nowMs received himage ver (by omega) hhunting hb (by omega : _ ≤ budget)
  have hend := hunderway.action_end himage.sendable 2
  obtain ⟨front, last, rx, hframe, -, hfront, haction, -⟩ :=
    run_frame_front flash₂ u nowMs true cmdEndUpdate 2 [] (.inl hhunting₂) (by simp)
      (by simp only [List.length_nil]; omega : _ ≤ budget - (38 + image.length))
  rw [hend] at haction
  have hb₂ : ({ proto₂ with rx } : Protocol).Bounded := hunderway.bounded himage.sendable
  obtain ⟨proto₃, hstep, -⟩ := step_byte_ready flash₂ u nowMs
    (budget - (38 + image.length) - (11 + 0)) true hb₂ (by rw [haction]; trivial)
  rw [haction] at hstep
  refine ⟨transferEvents (freeSlot flash) image ver ++ front.map (Event.byte · []),
    .byte last [], by rw [installEvents, hframe, List.append_assoc], ?_⟩
  rw [run_append, hrun₂, hfront]
  refine ⟨?_, ?_⟩
  · simp only [edit, Session.draining, haction]
    exact hunderway.edit_end 2
  · refine (congrArg (fun b : Board => ledgerAt b.flash) hstep).trans ?_
    rw [(hunderway.installed himage.sendable hcounter 2).ledger,
      ledgerOrBlank_of_ledgerAt hunderway.ledger, freeSlot_eq, install_start]

/-- A transfer is dropped, whatever its state. -/
theorem run_abort (seq : UInt16) (hhunting : proto.rx.Hunting) (hb : proto.Bounded)
    (hbudget : 11 ≤ budget) :
    ∃ proto', run ⟨flash, .update (u.draining proto nowMs budget received)⟩
        (frameEvents cmdAbort seq []) =
        ⟨flash, .update (u.draining proto' nowMs (budget - 11) true)⟩ ∧ proto'.state = .idle := by
  obtain ⟨proto', hrun, htransfer, -⟩ := run_frame flash u nowMs received cmdAbort seq []
    hhunting (by simp) hbudget hb (by rw [action_abort]; trivial)
  rw [action_abort] at hrun htransfer
  exact ⟨proto', hrun, by rw [htransfer]; rfl⟩

/-! ## Edits along a transfer -/

variable {flash u nowMs received} {allowed : Ledger → Edit → Prop}

theorem edits_pending (t : Transfer) :
    PassesPending (Edits allowed) flash u nowMs t := by
  intro proto budget received byte _ hpending edit hedit
  simp only [Board.edit, Session.draining, Protocol.byteAction, hpending, Action.edit] at hedit
  cases hedit

/-- A frame stands for the edit of its action. -/
theorem edits_frame (cmd : UInt8) (seq : UInt16) (data : List UInt8)
    (hhunting : proto.rx.Hunting) (hlen : data.length ≤ 1024)
    (hbudget : 11 + data.length ≤ budget)
    (hallowed : ∀ edit, (proto.toTransfer.action flash cmd seq data).edit proto.toTransfer =
      some edit → allowed (ledgerOrBlank flash) edit) :
    Transition.Guarded step (Edits allowed)
      ⟨flash, .update (u.draining proto nowMs budget received)⟩ (frameEvents cmd seq data) := by
  refine guarded_frame cmd seq data hhunting hlen hbudget (edits_pending _) ?_
  intro rx byte haction edit hedit
  simp only [Board.edit, Session.draining, haction] at hedit
  exact hallowed edit hedit

variable (flash u nowMs received)

theorem action_data_edit (t t' : Transfer) (flash : Flash) (seq : UInt16) (data : List UInt8) :
    (t.action flash cmdData seq data).edit t' = none := by
  rw [Transfer.action_cmdData]
  repeat' split
  all_goals rfl

/-- A transfer of one block stands for two edits. -/
theorem edits_install (himage : OneBlock image) (ver : UInt32)
    (hcounter : counterAt flash < 2 ^ 32 - 2) (hhunting : proto.rx.Hunting)
    (hb : proto.Bounded) (hbudget : 49 + image.length ≤ budget)
    (hstart : allowed (ledgerOrBlank flash)
      (.start (UInt32.ofNat image.length) (crc32Compute image) ver))
    (hinstall : allowed ((Edit.start (UInt32.ofNat image.length) (crc32Compute image) ver).apply
        (ledgerOrBlank flash))
      (.install (freeSlot flash) (UInt32.ofNat image.length) (crc32Compute image) ver)) :
    Transition.Guarded step (Edits allowed)
      ⟨flash, .update (u.draining proto nowMs budget received)⟩
      (installEvents (freeSlot flash) image ver) := by
  have hshort := himage.short
  have haction := action_start (t := proto.toTransfer) flash 0 (crc32Compute image) ver
    himage.sendable.size_ne_zero (UInt32.le_iff_toNat_le.mp himage.sendable.size_le)
  obtain ⟨proto₁, hrun₁, -, hhunting₁⟩ := run_frame flash u nowMs received cmdStartUpdate 0
    (startPayload (UInt32.ofNat image.length) (crc32Compute image) ver (freeSlot flash)) hhunting
    (by simp) (by rw [length_startPayload]; omega : _ ≤ budget) hb (by rw [haction]; trivial)
  obtain ⟨flash₂, proto₂, hrun₂, hunderway, hhunting₂⟩ :=
    run_transfer flash u nowMs received himage ver (by omega) hhunting hb (by omega : _ ≤ budget)
  rw [installEvents, Transition.guarded_append]
  rw [run] at hrun₁ hrun₂
  refine ⟨?_, ?_⟩
  · rw [transferEvents, Transition.guarded_append, hrun₁]
    refine ⟨edits_frame cmdStartUpdate 0 _ hhunting (by simp)
      (by rw [length_startPayload]; omega) fun edit hedit => ?_, ?_⟩
    · rw [haction] at hedit
      cases hedit
      exact hstart
    · refine edits_frame cmdData 1 image (.inl hhunting₁) (by omega) ?_ fun edit hedit => ?_
      · rw [length_startPayload]
        omega
      · rw [action_data_edit] at hedit
        cases hedit
  · rw [hrun₂]
    refine edits_frame cmdEndUpdate 2 [] (.inl hhunting₂) (by simp) ?_ fun edit hedit => ?_
    · rw [List.length_nil]
      omega
    · rw [hunderway.action_end himage.sendable, hunderway.edit_end] at hedit
      cases hedit
      rw [ledgerOrBlank_of_ledgerAt hunderway.ledger]
      exact hinstall

end Board

end OtaBoot
