import OtaBoot.Ledger

/-!
# What a frame does

The command handlers mix decisions with flash operations. Here the decision is
separated: `Transfer.action` says, from the transfer context and the flash
alone, what a frame leads to, and `ActionEffect` says what flash and context are
afterwards when the action is performed, fails, or is cut off by a power loss.
`feed_acts` relates the handlers to both.
-/

namespace OtaBoot

open Storage LittleEndian
open Protocol (startRecord endRecord)

/-! ## Slots in flash -/

/-- The address is one of a slot's. -/
def Slot.Covers (s : Slot) (a : Nat) : Prop := s.addr.toNat ≤ a ∧ a < s.addr.toNat + 491520

theorem Slot.addr_bounds (s : Slot) :
    0x08008000 ≤ s.addr.toNat ∧ s.addr.toNat + 491520 ≤ 0x080F8000 ∧ s.addr.toNat % 2048 = 0 := by
  cases s <;> decide

theorem Slot.addr_disjoint {s t : Slot} (h : s ≠ t) :
    s.addr.toNat + 491520 ≤ t.addr.toNat ∨ t.addr.toNat + 491520 ≤ s.addr.toNat := by
  cases s <;> cases t <;> first | exact absurd rfl h | decide

/-- Flash has changed within a slot only. -/
def ChangedWithin (s : Slot) (before after : Flash) : Prop :=
  ∀ a, ¬ s.Covers a → after a = before a

theorem ChangedWithin.refl (s : Slot) (flash : Flash) : ChangedWithin s flash flash :=
  fun _ _ => rfl

theorem ChangedWithin.metadata {s : Slot} {before after : Flash}
    (h : ChangedWithin s before after) : Memory.AgreeOn 0x080FF000 4096 after before := by
  intro a ha _
  have := s.addr_bounds
  exact h a fun hcovers => by have := hcovers.2; omega

theorem ChangedWithin.other {s t : Slot} {before after : Flash} (h : ChangedWithin s before after)
    (hne : t ≠ s) {count : Nat} (hcount : count ≤ 491520) :
    Memory.AgreeOn t.addr.toNat count after before := by
  intro a ha hcovers
  have := Slot.addr_disjoint hne
  exact h a fun ⟨hlo, hhi⟩ => by omega

/-! ## Transfers -/

/-- The bounds that every transfer context respects. -/
structure Transfer.Bounded (t : Transfer) : Prop where
  size : t.fwSize.toNat ≤ 491520
  written : t.bytesWritten.toNat ≤ t.fwSize.toNat
  aligned : t.bytesWritten.toNat % 8 = 0

theorem Transfer.Bounded.init : protocolInit.toTransfer.Bounded := by
  constructor <;> decide

theorem Transfer.abort_not_receiving (t : Transfer) : t.abort.state ≠ .receiving := by
  intro h
  cases h

theorem init_not_receiving : protocolInit.state ≠ .receiving := by
  intro h
  cases h

theorem Transfer.Bounded.abort {t : Transfer} (h : t.Bounded) : t.abort.Bounded :=
  ⟨h.size, Nat.zero_le _, rfl⟩

namespace Transfer

/-- Where the next block goes. -/
def blockAddr (t : Transfer) : UInt32 := t.targetSlot.addr + t.bytesWritten

/-- Flash with the page of the next block erased, if the block begins a page. -/
def pageReady (t : Transfer) (flash : Flash) : Flash :=
  if t.bytesWritten % flashPageSize = 0 then flash.erased t.blockAddr else flash

/-- A block that continues the transfer. -/
structure Continues (t : Transfer) (block : List UInt8) : Prop where
  nonempty : 0 < block.length
  aligned : block.length % 8 = 0
  fits : t.bytesWritten.toNat + block.length ≤ t.fwSize.toNat

/-- What storing a block leaves, wherever it stops. -/
def BlockStopped (t : Transfer) (before : Flash) (block : List UInt8) (after : Flash) : Prop :=
  after = before ∨ PartlyWritten (t.pageReady before) t.blockAddr.toNat block after

section Block

variable {t : Transfer} {block : List UInt8}

theorem toNat_blockAddr (hb : t.Bounded) :
    t.blockAddr.toNat = t.targetSlot.addr.toNat + t.bytesWritten.toNat := by
  have haddr := t.targetSlot.addr_bounds
  have hsize := hb.size
  have hwritten := hb.written
  rw [blockAddr, UInt32.toNat_add, Nat.mod_eq_of_lt (by omega)]

theorem pageBoundary_iff :
    t.bytesWritten % flashPageSize = 0 ↔ t.bytesWritten.toNat % 2048 = 0 := by
  rw [← UInt32.toNat_inj, UInt32.toNat_mod]
  rfl

theorem blockAddr_erasable (hb : t.Bounded) (hblock : t.Continues block)
    (hpage : t.bytesWritten % flashPageSize = 0) : ErasablePage t.blockAddr := by
  have haddr := t.targetSlot.addr_bounds
  have hsize := hb.size
  have hfits := hblock.fits
  have hpos := hblock.nonempty
  rw [pageBoundary_iff] at hpage
  constructor <;> rw [toNat_blockAddr hb] <;> omega

theorem blockAddr_writable (hb : t.Bounded) (hblock : t.Continues block) :
    WritableRange t.blockAddr block.length := by
  have haddr := t.targetSlot.addr_bounds
  have hsize := hb.size
  have hwritten := hb.aligned
  have hfits := hblock.fits
  have haligned := hblock.aligned
  constructor <;> try rw [toNat_blockAddr hb]
  · omega
  · exact haligned
  · exact hblock.nonempty
  · omega
  · omega

theorem pageReady_changedWithin (hb : t.Bounded) (hblock : t.Continues block) (flash : Flash) :
    ChangedWithin t.targetSlot flash (t.pageReady flash) := by
  intro a ha
  unfold pageReady
  split
  next hpage =>
    have hsize := hb.size
    have hfits := hblock.fits
    have hpos := hblock.nonempty
    rw [pageBoundary_iff] at hpage
    have hagree : Memory.AgreeOn a 1 (flash.erased t.blockAddr) flash := by
      apply Memory.fill_agreeOn
      rw [toNat_blockAddr hb]
      unfold Slot.Covers at ha
      omega
    exact hagree a (Nat.le_refl _) (Nat.lt_succ_self a)
  next => rfl

/-- A block changes nothing outside the slot that is being received. -/
theorem BlockStopped.changedWithin {before after : Flash} (hb : t.Bounded)
    (hblock : t.Continues block) (h : t.BlockStopped before block after) :
    ChangedWithin t.targetSlot before after := by
  rcases h with rfl | ⟨count, hcount, rfl⟩
  · exact .refl _ _
  · intro a ha
    have hsize := hb.size
    have hfits := hblock.fits
    have hstore : Memory.AgreeOn a 1 ((t.pageReady before).store t.blockAddr.toNat
        (block.take (8 * count))) (t.pageReady before) := by
      apply Memory.store_agreeOn
      rw [toNat_blockAddr hb, List.length_take]
      unfold Slot.Covers at ha
      omega
    rw [hstore a (Nat.le_refl _) (Nat.lt_succ_self a)]
    exact pageReady_changedWithin hb hblock before a ha

end Block

end Transfer

/-! ## Decisions -/

/-- The fields of a START_UPDATE frame. -/
structure StartRequest where
  size : UInt32
  crc : UInt32
  ver : UInt32
  slot : UInt8
  proto : UInt8

def StartRequest.ofBytes (data : List UInt8) : StartRequest where
  size := word32 (data.getD 0 0) (data.getD 1 0) (data.getD 2 0) (data.getD 3 0)
  crc := word32 (data.getD 4 0) (data.getD 5 0) (data.getD 6 0) (data.getD 7 0)
  ver := word32 (data.getD 8 0) (data.getD 9 0) (data.getD 10 0) (data.getD 11 0)
  slot := data.getD 12 0
  proto := data.getD 13 0

/-- The request passes the checks of `on_start_update`. -/
def StartRequest.Acceptable (r : StartRequest) (flash : Flash) : Prop :=
  r.proto = protoVersion ∧ ¬ (r.size = 0 ∨ r.size > slotSize) ∧ r.slot = (freeSlot flash).toByte

instance (r : StartRequest) (flash : Flash) : Decidable (r.Acceptable flash) :=
  inferInstanceAs (Decidable (_ ∧ _ ∧ _))

/-- What a frame leads to. -/
inductive Action where
  /-- A reply, nothing else. -/
  | answer
  /-- The transfer is dropped. -/
  | abort
  /-- A transfer to the free slot begins. -/
  | start (seq : UInt16) (size crc ver : UInt32)
  /-- The next block of the image is stored. -/
  | store (seq : UInt16) (block : List UInt8)
  /-- The received image is put on trial. -/
  | finish (seq : UInt16)
  deriving DecidableEq, Repr

/-- The decisions of the command handlers. -/
def Transfer.action (t : Transfer) (flash : Flash) (cmd : UInt8) (seq : UInt16)
    (data : List UInt8) : Action :=
  if cmd = cmdGetInfo then .answer
  else if cmd = cmdStartUpdate then
    let r := StartRequest.ofBytes data
    if data.length = 16 ∧ r.Acceptable flash then .start seq r.size r.crc r.ver else .answer
  else if cmd = cmdData then
    let len := UInt32.ofNat data.length
    if t.state ≠ .receiving then .answer
    else if seq = t.lastSeq then .answer
    else if seq ≠ t.expectedSeq then .abort
    else if len = 0 ∨ len % 8 ≠ 0 then .answer
    else if t.bytesWritten + len > t.fwSize then .abort
    else .store seq data
  else if cmd = cmdEndUpdate then
    if t.state ≠ .receiving then .answer
    else if t.bytesWritten ≠ t.fwSize then .abort
    else if crc32Compute (flash.read t.targetSlot.addr.toNat t.fwSize.toNat) ≠ t.fwCrc32 then .abort
    else .finish seq
  else if cmd = cmdAbort then .abort
  else .answer

section Commands

variable (t : Transfer) (flash : Flash) (seq : UInt16) (data : List UInt8)

theorem Transfer.action_cmdStartUpdate :
    t.action flash cmdStartUpdate seq data =
      if data.length = 16 ∧ (StartRequest.ofBytes data).Acceptable flash then
        .start seq (StartRequest.ofBytes data).size (StartRequest.ofBytes data).crc
          (StartRequest.ofBytes data).ver
      else .answer := rfl

theorem Transfer.action_cmdData :
    t.action flash cmdData seq data =
      if t.state ≠ .receiving then .answer
      else if seq = t.lastSeq then .answer
      else if seq ≠ t.expectedSeq then .abort
      else if UInt32.ofNat data.length = 0 ∨ UInt32.ofNat data.length % 8 ≠ 0 then .answer
      else if t.bytesWritten + UInt32.ofNat data.length > t.fwSize then .abort
      else .store seq data := rfl

theorem Transfer.action_cmdEndUpdate :
    t.action flash cmdEndUpdate seq data =
      if t.state ≠ .receiving then .answer
      else if t.bytesWritten ≠ t.fwSize then .abort
      else if crc32Compute (flash.read t.targetSlot.addr.toNat t.fwSize.toNat) ≠ t.fwCrc32 then
        .abort
      else .finish seq := rfl

/-- A block under the last number is answered, nothing else. -/
theorem Transfer.action_repeated {t : Transfer} {seq : UInt16} (h : seq = t.lastSeq) :
    t.action flash cmdData seq data = .answer := by
  rw [action_cmdData, if_pos h, ite_self]

end Commands

namespace Action

variable (before : Flash) (t : Transfer)

/-- What is known when a frame leads to an action. -/
def Justified : Action → Prop
  | answer | abort => True
  | start _ size _ _ => size.toNat ≤ 491520 ∧ size ≠ 0
  | store _ block => t.state = .receiving ∧ t.Continues block
  | finish _ =>
      t.state = .receiving ∧ t.bytesWritten = t.fwSize ∧
        crc32Compute (before.read t.targetSlot.addr.toNat t.fwSize.toNat) = t.fwCrc32

/-- Flash after the action. -/
def image : Action → Flash
  | answer | abort => before
  | start _ size crc ver =>
      completeImage before (startRecord before (freeSlot before) size crc ver)
  | store _ block => (t.pageReady before).store t.blockAddr.toNat block
  | finish _ =>
      completeImage before (endRecord before t.targetSlot t.fwSize t.fwCrc32 t.fwVersion)

/-- Flash after an action that stopped anywhere. -/
def Stopped (after : Flash) : Action → Prop
  | answer | abort => False
  | start _ size crc ver =>
      WriteStopped before (startRecord before (freeSlot before) size crc ver) after
  | store _ block => t.BlockStopped before block after
  | finish _ =>
      WriteStopped before (endRecord before t.targetSlot t.fwSize t.fwCrc32 t.fwVersion) after

/-- The transfer context after the action. -/
def success : Action → Transfer
  | answer => t
  | abort => t.abort
  | start seq size crc ver => t.started seq (freeSlot before) size crc ver
  | store seq block => t.advanced seq (UInt32.ofNat block.length)
  | finish _ => { t with state := .complete }

/-- The transfer context after the action reported an error. -/
def failure : Action → Transfer
  | answer | start .. => t
  | abort | store .. | finish _ => t.abort

/-- The action cannot fail by itself. -/
def Ready : Action → Prop
  | store _ block => (t.pageReady before).Blank t.blockAddr.toNat block.length
  | _ => True

/-- The action is answered by an ACK. -/
def acks : Action → Option UInt16
  | answer | abort => none
  | start seq .. | store seq _ | finish seq => some seq

/-- The inactivity timeout after the action; only an accepted START_UPDATE sets it. -/
def timeoutMs (old : UInt32) : Action → UInt32
  | start .. => timeoutDataMs
  | answer | abort | store .. | finish _ => old

/-- The calls of a metadata write are permitted. -/
def WriteAllowed (c : Climate Flash FlashCall) (src : Metadata) : Prop :=
  c.calls before (.erasePage (metaPage (selectTarget before).1)) ∧
    c.calls (before.erased (metaPage (selectTarget before).1))
      (.write (metaPage (selectTarget before).1) (writtenRecord before src).toBytes)

/-- The calls of the action are permitted. -/
def Allowed (c : Climate Flash FlashCall) : Action → Prop
  | answer | abort => True
  | start _ size crc ver =>
      WriteAllowed before c (startRecord before (freeSlot before) size crc ver)
  | store _ block =>
      (t.bytesWritten % flashPageSize = 0 → c.calls before (.erasePage t.blockAddr)) ∧
        c.calls (t.pageReady before) (.write t.blockAddr block)
  | finish _ =>
      WriteAllowed before c (endRecord before t.targetSlot t.fwSize t.fwCrc32 t.fwVersion)

end Action

/-- Flash and protocol manager after a frame that led to an action; no manager
is left after a power cut. -/
inductive ActionEffect (quiet : Prop) (before : Flash) (p : Protocol) (a : Action) :
    Flash → Option Protocol → Prop
  | performed {p' : Protocol} (htransfer : p'.toTransfer = a.success before p.toTransfer)
      (hrx : p'.rx = p.rx)
      (htx : ∀ seq, a.acks = some seq → p'.tx = p.tx ++ sendFrame rspAck seq [])
      (htimeout : p'.timeoutMs = a.timeoutMs p.timeoutMs) :
      ActionEffect quiet before p a (a.image before p.toTransfer) (some p')
  | failed {p' : Protocol} {after : Flash} (hstopped : a.Stopped before p.toTransfer after)
      (hready : quiet → ¬ a.Ready before p.toTransfer)
      (htransfer : p'.toTransfer = a.failure p.toTransfer) :
      ActionEffect quiet before p a after (some p')
  | cut {after : Flash} (hstopped : a.Stopped before p.toTransfer after) :
      ActionEffect quiet before p a after none

section Decisions

variable {t : Transfer} {flash : Flash} {cmd : UInt8} {seq : UInt16} {data : List UInt8}

theorem Transfer.continues_of_checks (hb : t.Bounded) (hlen : data.length < 65536)
    (haligned : ¬ (UInt32.ofNat data.length = 0 ∨ UInt32.ofNat data.length % 8 ≠ 0))
    (hfits : ¬ t.bytesWritten + UInt32.ofNat data.length > t.fwSize) : t.Continues data := by
  have hsize := hb.size
  have hwritten := hb.written
  have hofNat : (UInt32.ofNat data.length).toNat = data.length :=
    UInt32.toNat_ofNat_of_lt' (by simp only [UInt32.size]; omega)
  rw [not_or, Decidable.not_not, ← UInt32.toNat_inj, ← UInt32.toNat_inj, UInt32.toNat_mod,
    hofNat] at haligned
  rw [UInt32.not_lt, UInt32.le_iff_toNat_le, UInt32.toNat_add, hofNat,
    Nat.mod_eq_of_lt (by omega)] at hfits
  exact ⟨Nat.pos_of_ne_zero haligned.1, haligned.2, hfits⟩

/-- The checks made before an action. -/
theorem Transfer.action_justified (hb : t.Bounded) (hlen : data.length < 65536) :
    (t.action flash cmd seq data).Justified flash t := by
  unfold Transfer.action
  dsimp only
  split
  · trivial
  split
  · split
    next h =>
      obtain ⟨-, -, hsize, -⟩ := h
      rw [not_or, UInt32.not_lt, UInt32.le_iff_toNat_le] at hsize
      exact ⟨hsize.2, hsize.1⟩
    next => trivial
  split
  · split
    · trivial
    next hstate =>
    split
    · trivial
    split
    · trivial
    split
    · trivial
    next haligned =>
    split
    · trivial
    next hfits =>
      exact ⟨Decidable.not_not.mp hstate, continues_of_checks hb hlen haligned hfits⟩
  split
  · split
    · trivial
    next hstate =>
    split
    · trivial
    next hwritten =>
    split
    · trivial
    next hcrc =>
      exact ⟨Decidable.not_not.mp hstate, Decidable.not_not.mp hwritten,
        Decidable.not_not.mp hcrc⟩
  split <;> trivial

end Decisions

/-! ## The handlers -/

section Handlers

variable {quiet : Prop} {before : Flash} {p p' : Protocol} {seq : UInt16}

theorem ActionEffect.answered (htransfer : p'.toTransfer = p.toTransfer) (hrx : p'.rx = p.rx)
    (htimeout : p'.timeoutMs = p.timeoutMs) :
    ActionEffect quiet before p .answer before (some p') :=
  .performed htransfer hrx nofun htimeout

theorem ActionEffect.aborted (htransfer : p'.toTransfer = p.toTransfer.abort)
    (hrx : p'.rx = p.rx) (htimeout : p'.timeoutMs = p.timeoutMs) :
    ActionEffect quiet before p .abort before (some p') :=
  .performed htransfer hrx nofun htimeout

variable {c : Climate Flash FlashCall}

/-- A program acts on flash and context as an action does, where the calls of
the action are permitted. -/
def Acts (c : Climate Flash FlashCall) (before : Flash) (p : Protocol) (a : Action)
    (x : FlashM Protocol) : Prop :=
  a.Allowed before p.toTransfer c → Triple c (· = before) x
    (fun p' after => ActionEffect c.ReportsNoError before p a after (some p'))
    (fun after => ActionEffect c.ReportsNoError before p a after none)

theorem Acts.answer (htransfer : p'.toTransfer = p.toTransfer) (hrx : p'.rx = p.rx)
    (htimeout : p'.timeoutMs = p.timeoutMs) : Acts c before p .answer (pure p') :=
  fun _ => Triple.pure_at (.answered htransfer hrx htimeout)

theorem Acts.abort (htransfer : p'.toTransfer = p.toTransfer.abort) (hrx : p'.rx = p.rx)
    (htimeout : p'.timeoutMs = p.timeoutMs) : Acts c before p .abort (pure p') :=
  fun _ => Triple.pure_at (.aborted htransfer hrx htimeout)

/-- Reading flash does not act. -/
theorem Acts.read {a : Action} {x : Flash → FlashM Protocol} (h : Acts c before p a (x before)) :
    Acts c before p a (Faulty.read >>= x) :=
  fun hallowed => Triple.read_at (h hallowed)

theorem Acts.ite {a : Action} {cond : Prop} [Decidable cond] {x y : FlashM Protocol}
    (hx : cond → Acts c before p a x) (hy : ¬ cond → Acts c before p a y) :
    Acts c before p a (if cond then x else y) :=
  fun hallowed => Triple.ite (fun h => hx h hallowed) fun h => hy h hallowed

/-- The same decision in program and action. -/
theorem Acts.ite_ite {a b : Action} {cond : Prop} [Decidable cond] {x y : FlashM Protocol}
    (hx : cond → Acts c before p a x) (hy : ¬ cond → Acts c before p b y) :
    Acts c before p (if cond then a else b) (if cond then x else y) := by
  by_cases h : cond
  · simpa only [if_pos h] using hx h
  · simpa only [if_neg h] using hy h

theorem onGetInfo_acts : Acts c before p .answer (p.onGetInfo seq) :=
  Acts.read (.answer rfl rfl rfl)

/-- A metadata write, and what the handler makes of its status. -/
theorem Acts.metadataWrite {a : Action} {src : Metadata} {good bad : Protocol}
    (hallowed : a.Allowed before p.toTransfer c → Action.WriteAllowed before c src)
    (hsound : src.Sound)
    (himage : a.image before p.toTransfer = completeImage before src)
    (hstopped : ∀ after, a.Stopped before p.toTransfer after ↔ WriteStopped before src after)
    (hgood : good.toTransfer = a.success before p.toTransfer) (hrx : good.rx = p.rx)
    (htx : ∀ seq, a.acks = some seq → good.tx = p.tx ++ sendFrame rspAck seq [])
    (htimeout : good.timeoutMs = a.timeoutMs p.timeoutMs)
    (hbad : bad.toTransfer = a.failure p.toTransfer) :
    Acts c before p a (OtaBoot.metadataWrite src >>= fun st =>
      if st ≠ .ok then pure bad else pure good) := by
  intro ha
  refine Triple.bind ((metadataWrite_triple _ _ (hallowed ha).1 (hallowed ha).2).conseq
    (fun _ h => h) (fun _ _ h => h) fun after h => .cut ((hstopped after).mpr h)) fun st => ?_
  refine Triple.ite (fun hst => Triple.pure ?_) fun hst => Triple.pure ?_
  · rintro after ⟨hafter, -, hquiet⟩
    exact .failed ((hstopped after).mpr hafter) (fun h => absurd (hquiet h hsound) hst) hbad
  · rintro after ⟨-, hok, -⟩
    obtain rfl := (hok (Decidable.not_not.mp hst)).2
    exact himage ▸ .performed hgood hrx htx htimeout

theorem onStartUpdate_acts {data : List UInt8} :
    Acts c before p (p.toTransfer.action before cmdStartUpdate seq data)
      (p.onStartUpdate seq data) := by
  rw [Transfer.action_cmdStartUpdate]
  by_cases h : data.length = 16 ∧ (StartRequest.ofBytes data).Acceptable before
  · rw [if_pos h]
    obtain ⟨hlen, hproto, hsize, hslot⟩ := h
    refine Acts.ite (fun h => absurd hlen h) fun _ => ?_
    refine Acts.ite (fun h => absurd hproto h) fun _ => ?_
    refine Acts.read (Acts.ite (fun h => absurd h hsize) fun _ => ?_)
    refine Acts.ite (fun h => absurd hslot h) fun _ => ?_
    -- the handler's checks in its order, each passed
    have hle : (StartRequest.ofBytes data).size ≤ slotSize :=
      UInt32.not_lt.mp (not_or.mp hsize).2
    exact Acts.metadataWrite id (startRecord_sound _ _ _ _ hle) rfl (fun _ => .rfl) rfl rfl
      (fun _ hseq => by cases hseq; rfl) rfl rfl
  · rw [if_neg h]
    refine Acts.ite (fun _ => .answer rfl rfl rfl) fun hlen => ?_
    refine Acts.ite (fun _ => .answer rfl rfl rfl) fun hproto => ?_
    refine Acts.read (Acts.ite (fun _ => .answer rfl rfl rfl) fun hsize => ?_)
    refine Acts.ite (fun _ => .answer rfl rfl rfl) fun hslot => ?_
    exact absurd ⟨Decidable.not_not.mp hlen, Decidable.not_not.mp hproto, hsize,
      Decidable.not_not.mp hslot⟩ h

/-- The lazy erase of `on_data`. -/
theorem eraseIfPage_triple {t : Transfer} {block : List UInt8} (hb : t.Bounded)
    (hblock : t.Continues block)
    (hcall : t.bytesWritten % flashPageSize = 0 → c.calls before (.erasePage t.blockAddr)) :
    Triple c (· = before)
      (if t.bytesWritten % flashPageSize = 0 then flashErasePage t.blockAddr else pure .ok)
      (fun st after => t.BlockStopped before block after ∧
        (st = .ok → after = t.pageReady before) ∧ (c.ReportsNoError → st = .ok))
      (t.BlockStopped before block) := by
  refine Triple.ite (fun hpage => ?_) fun hpage => Triple.pure ?_
  · have hready : t.pageReady before = before.erased t.blockAddr := if_pos hpage
    have hstopped (after : Flash) (h : after = before ∨ after = before.erased t.blockAddr) :
        t.BlockStopped before block after := by
      rcases h with rfl | rfl
      · exact .inl rfl
      · exact .inr (hready ▸ .none _ _ _)
    refine (flashErasePage_triple (Transfer.blockAddr_erasable hb hblock hpage)
      (hcall hpage)).conseq (fun _ h => h) ?_ hstopped
    rintro st after ⟨hafter, hok, hquiet⟩
    exact ⟨hstopped after hafter, fun h => (hok h).trans hready.symm, hquiet⟩
  · rintro after rfl
    exact ⟨.inl rfl, fun _ => (if_neg hpage).symm, fun _ => rfl⟩

theorem onData_acts {data : List UInt8} (hb : p.Bounded) (hlen : data.length < 65536) :
    Acts c before p (p.toTransfer.action before cmdData seq data) (p.onData seq data) := by
  rw [Transfer.action_cmdData]
  -- handler and decision make the same tests
  refine Acts.ite_ite (fun _ => .answer rfl rfl rfl) fun _ => ?_
  refine Acts.ite_ite (fun _ => .answer rfl rfl rfl) fun _ => ?_
  refine Acts.ite_ite (fun _ => .abort rfl rfl rfl) fun _ => ?_
  refine Acts.ite_ite (fun _ => .answer rfl rfl rfl) fun haligned => ?_
  refine Acts.ite_ite (fun _ => .abort rfl rfl rfl) fun hfits => ?_
  have hblock := Transfer.continues_of_checks hb hlen haligned hfits
  -- what remains is the erase and the write
  rintro ⟨hallowedErase, hallowedWrite⟩
  refine Triple.bind_ite ((eraseIfPage_triple hb hblock hallowedErase).conseq (fun _ h => h)
    (fun _ _ h => h) fun after h => ActionEffect.cut h) fun st => ?_
  refine Triple.ite (fun hst => Triple.pure ?_) fun hst => ?_
  · rintro after ⟨hafter, -, hquiet⟩
    exact .failed hafter (fun h => absurd (hquiet h) hst) rfl
  refine Triple.bind ((flashWrite_triple (Transfer.blockAddr_writable hb hblock)
    hallowedWrite).conseq (fun after h => h.2.1 (Decidable.not_not.mp hst)) (fun _ _ h => h)
    fun after h => .cut (.inr h)) fun st => ?_
  refine Triple.ite (fun hst => Triple.pure ?_) fun hst => Triple.pure ?_
  · rintro after ⟨hafter, -, hquiet⟩
    exact .failed (.inr hafter) (fun h hready => absurd (hquiet h hready) hst) rfl
  · rintro after ⟨-, hok, -⟩
    obtain rfl := hok (Decidable.not_not.mp hst)
    exact .performed rfl rfl (fun _ hseq => by cases hseq; rfl) rfl

theorem onEndUpdate_acts (hb : p.Bounded) (data : List UInt8) :
    Acts c before p (p.toTransfer.action before cmdEndUpdate seq data) (p.onEndUpdate seq) := by
  rw [Transfer.action_cmdEndUpdate]
  refine Acts.ite_ite (fun _ => .answer rfl rfl rfl) fun _ => ?_
  refine Acts.ite_ite (fun _ => .abort rfl rfl rfl) fun _ => ?_
  refine Acts.read (Acts.ite_ite (fun _ => .abort rfl rfl rfl) fun _ => ?_)
  have hsize : p.fwSize ≤ slotSize := UInt32.le_iff_toNat_le.mpr hb.size
  exact Acts.metadataWrite id (endRecord_sound _ _ _ _ hsize) rfl (fun _ => .rfl) rfl rfl
    (fun _ hseq => by cases hseq; rfl) rfl rfl

/-- The frame counters do not matter. -/
theorem Acts.congr {a : Action} {x : FlashM Protocol} {q : Protocol}
    (htransfer : q.toTransfer = p.toTransfer) (hrx : q.rx = p.rx) (htx : q.tx = p.tx)
    (htimeout : q.timeoutMs = p.timeoutMs) (h : Acts c before q a x) : Acts c before p a x := by
  have heffect (after : Flash) (p' : Option Protocol)
      (h : ActionEffect c.ReportsNoError before q a after p') :
      ActionEffect c.ReportsNoError before p a after p' := by
    cases h with
    | performed htransfer' hrx' htx' htimeout' =>
        exact htransfer ▸ .performed (htransfer ▸ htransfer') (hrx'.trans hrx) (htx ▸ htx')
          (htimeout ▸ htimeout')
    | failed hstopped hready htransfer' =>
        exact .failed (htransfer ▸ hstopped) (htransfer ▸ hready) (htransfer ▸ htransfer')
    | cut hstopped => exact .cut (htransfer ▸ hstopped)
  intro hallowed
  exact (h (htransfer ▸ hallowed)).conseq (fun _ h => h) (fun _ _ => heffect _ _)
    (fun _ => heffect _ _)

/-- Every frame acts as decided. -/
theorem dispatch_acts (hb : p.Bounded) (cmd : UInt8) (seq : UInt16) (data : List UInt8)
    (hlen : data.length < 65536) :
    Acts c before p (p.toTransfer.action before cmd seq data) (p.dispatch cmd seq data) := by
  refine Acts.congr (q := { p with cntFramesOk := p.cntFramesOk + 1 }) rfl rfl rfl rfl ?_
  unfold Protocol.dispatch
  by_cases hinfo : cmd = cmdGetInfo
  · subst hinfo
    exact onGetInfo_acts
  by_cases hstart : cmd = cmdStartUpdate
  · subst hstart
    exact onStartUpdate_acts
  by_cases hdata : cmd = cmdData
  · subst hdata
    exact onData_acts hb hlen
  by_cases hend : cmd = cmdEndUpdate
  · subst hend
    exact onEndUpdate_acts (p := { p with cntFramesOk := p.cntFramesOk + 1 }) hb data
  simp only [Transfer.action, hinfo, hstart, hdata, hend, if_false]
  exact Acts.ite_ite (fun _ => .abort rfl rfl rfl) fun _ => .answer rfl rfl rfl

/-- START_UPDATE is carried out whatever the transfer context holds. -/
theorem dispatch_start_acts (p : Protocol) (seq : UInt16) (data : List UInt8) :
    Acts c before p (p.toTransfer.action before cmdStartUpdate seq data)
      (p.dispatch cmdStartUpdate seq data) :=
  Acts.congr (q := { p with cntFramesOk := p.cntFramesOk + 1 }) rfl rfl rfl rfl onStartUpdate_acts

/-- A dispatched frame is no longer than its LENGTH field can say. -/
theorem Receiver.feed_frame_length {rx : Receiver} {byte cmd : UInt8} {data : List UInt8}
    (h : (rx.feed byte).2 = .frame cmd seq data) : data.length < 65536 := by
  unfold Receiver.feed at h
  cases hstate : rx.state
  case crc =>
    simp only [hstate] at h
    split at h
    next =>
      unfold Receiver.complete at h
      dsimp only at h
      split at h
      next =>
        simp only [RxEvent.frame.injEq] at h
        obtain ⟨-, -, rfl⟩ := h
        rw [Memory.length_read]
        exact UInt16.toNat_lt _
      next => cases h
    next => cases h
  all_goals
    simp only [hstate] at h
    repeat' split at h
    all_goals cases h

/-- What a byte leads to, by completing a frame. -/
def Protocol.byteAction (p : Protocol) (flash : Flash) (byte : UInt8) : Action :=
  match (p.rx.feed byte).2 with
  | .frame cmd seq data => p.toTransfer.action flash cmd seq data
  | _ => .answer

/-- Every byte acts as decided. -/
theorem feed_acts (hb : p.Bounded) (byte : UInt8) :
    Acts c before { p with rx := (p.rx.feed byte).1 } (p.byteAction before byte)
      (p.feed byte) := by
  unfold Protocol.feed Protocol.byteAction
  cases hevent : (p.rx.feed byte).2 with
  | pending => exact .answer rfl rfl rfl
  | overlong => exact .answer rfl rfl rfl
  | badCrc seq => exact .answer rfl rfl rfl
  | frame cmd seq data =>
      exact dispatch_acts (p := { p with rx := (p.rx.feed byte).1 }) hb cmd seq data
        (Receiver.feed_frame_length hevent)

theorem byteAction_justified (hb : p.Bounded) (byte : UInt8) :
    (p.byteAction before byte).Justified before p.toTransfer := by
  unfold Protocol.byteAction
  cases hevent : (p.rx.feed byte).2 with
  | frame cmd seq data =>
      exact Transfer.action_justified hb (Receiver.feed_frame_length hevent)
  | pending | overlong | badCrc => trivial

end Handlers

/-- Whatever becomes of an action, the bounds are kept. -/
theorem ActionEffect.bounded {quiet : Prop} {before after : Flash} {p p' : Protocol} {a : Action}
    (h : ActionEffect quiet before p a after (some p')) (hb : p.Bounded)
    (hjustified : a.Justified before p.toTransfer) : p'.Bounded := by
  cases h with
  | performed htransfer =>
      rw [htransfer]
      cases a with
      | answer => exact hb
      | abort => exact hb.abort
      | start seq size crc ver => exact ⟨hjustified.1, Nat.zero_le _, rfl⟩
      | store seq block =>
          obtain ⟨-, hpos, haligned, hfits⟩ := hjustified
          have hsize := hb.size
          have hwritten := hb.aligned
          have hofNat : (UInt32.ofNat block.length).toNat = block.length :=
            UInt32.toNat_ofNat_of_lt' (by simp only [UInt32.size]; omega)
          have hsum : (p.bytesWritten + UInt32.ofNat block.length).toNat =
              p.bytesWritten.toNat + block.length := by
            rw [UInt32.toNat_add, hofNat, Nat.mod_eq_of_lt (by omega)]
          refine ⟨hsize, ?_, ?_⟩ <;> simp only [Action.success, Transfer.advanced, hsum] <;> omega
      | finish seq => exact ⟨hb.size, hb.written, hb.aligned⟩
  | failed hstopped hready htransfer =>
      rw [htransfer]
      cases a with
      | answer | start => exact hb
      | abort | store | finish => exact hb.abort

end OtaBoot
