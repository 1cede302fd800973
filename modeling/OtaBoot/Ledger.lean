import OtaBoot.Firmware.BootMain

/-!
# What the metadata says

A record is read for three things: which slot is active, how often it was
started unconfirmed, and what each slot holds. This is its ledger; magic,
counter, padding and CRC only serve the store. The five writers of the firmware
edit the ledger in five ways, and a write that stops anywhere has made its edit
or none.
-/

namespace OtaBoot

open Storage
open Protocol (startRecord endRecord)

/-! ## Ledgers -/

/-- `slot_info_t` without its padding. -/
structure Descriptor where
  size : UInt32
  crc32 : UInt32
  version : UInt32
  state : UInt8
  deriving DecidableEq, Repr

@[ext]
structure Ledger where
  active : Slot
  bootFailCount : UInt8
  slot : Slot → Descriptor

namespace Ledger

/-- The ledger of a board without metadata. -/
def blank : Ledger := ⟨.a, 0, fun _ => ⟨0, 0, 0, stateEmpty⟩⟩

/-- Describe a slot anew. -/
def describe (l : Ledger) (s : Slot) (d : Descriptor) : Ledger :=
  { l with slot := fun t => if t = s then d else l.slot t }

section Describe

variable (l : Ledger) (s t : Slot) (d : Descriptor)

@[simp] theorem active_describe : (l.describe s d).active = l.active := rfl

@[simp] theorem bootFailCount_describe : (l.describe s d).bootFailCount = l.bootFailCount := rfl

@[simp] theorem slot_describe : (l.describe s d).slot s = d := if_pos rfl

theorem slot_describe_of_ne (h : t ≠ s) : (l.describe s d).slot t = l.slot t := if_neg h

@[simp] theorem slot_other_describe : (l.describe s d).slot s.other = l.slot s.other :=
  l.slot_describe_of_ne s s.other d s.other_ne

@[simp] theorem slot_describe_other : (l.describe s.other d).slot s = l.slot s :=
  l.slot_describe_of_ne s.other s d s.ne_other

end Describe

end Ledger

/-- What a writer of the metadata does to the ledger. -/
inductive Edit where
  /-- `on_start_update`: the free slot is about to be overwritten. -/
  | start (size crc ver : UInt32)
  /-- `on_end_update`: a verified image becomes active, on trial. -/
  | install (slot : Slot) (size crc ver : UInt32)
  /-- `main`: the active image is started once more. -/
  | attempt
  /-- `main`: the active image is rejected. -/
  | rollback
  /-- `confirm_startup`: an image reports that it works. -/
  | confirm (slot : Slot)
  deriving DecidableEq, Repr

def Edit.apply (l : Ledger) : Edit → Ledger
  | start size crc ver => l.describe l.active.other ⟨size, crc, ver, stateInProgress⟩
  | install slot size crc ver =>
      { l.describe slot ⟨size, crc, ver, stateTesting⟩ with active := slot, bootFailCount := 0 }
  | attempt => { l with bootFailCount := l.bootFailCount + 1 }
  | rollback =>
      { l.describe l.active { l.slot l.active with state := stateEmpty } with
        active := l.active.other, bootFailCount := 0 }
  | confirm slot =>
      { l.describe slot { l.slot slot with state := stateValid } with bootFailCount := 0 }

section Edits

variable (l : Ledger) (s : Slot) (size crc ver : UInt32)

@[simp] theorem active_start : ((Edit.start size crc ver).apply l).active = l.active := rfl

@[simp] theorem bootFailCount_start :
    ((Edit.start size crc ver).apply l).bootFailCount = l.bootFailCount := rfl

@[simp] theorem slot_start :
    ((Edit.start size crc ver).apply l).slot l.active.other = ⟨size, crc, ver, stateInProgress⟩ :=
  l.slot_describe _ _

@[simp] theorem slot_start_active :
    ((Edit.start size crc ver).apply l).slot l.active = l.slot l.active :=
  l.slot_describe_other _ _

@[simp] theorem active_install : ((Edit.install s size crc ver).apply l).active = s := rfl

@[simp] theorem bootFailCount_install :
    ((Edit.install s size crc ver).apply l).bootFailCount = 0 := rfl

@[simp] theorem slot_install :
    ((Edit.install s size crc ver).apply l).slot s = ⟨size, crc, ver, stateTesting⟩ :=
  if_pos rfl

@[simp] theorem slot_install_other :
    ((Edit.install s size crc ver).apply l).slot s.other = l.slot s.other :=
  if_neg s.other_ne

@[simp] theorem active_attempt : (Edit.attempt.apply l).active = l.active := rfl

@[simp] theorem bootFailCount_attempt :
    (Edit.attempt.apply l).bootFailCount = l.bootFailCount + 1 := rfl

@[simp] theorem slot_attempt : (Edit.attempt.apply l).slot s = l.slot s := rfl

@[simp] theorem active_rollback : (Edit.rollback.apply l).active = l.active.other := rfl

@[simp] theorem bootFailCount_rollback : (Edit.rollback.apply l).bootFailCount = 0 := rfl

@[simp] theorem slot_rollback :
    (Edit.rollback.apply l).slot l.active = { l.slot l.active with state := stateEmpty } :=
  if_pos rfl

@[simp] theorem slot_rollback_other :
    (Edit.rollback.apply l).slot l.active.other = l.slot l.active.other :=
  if_neg l.active.other_ne

@[simp] theorem active_confirm : ((Edit.confirm s).apply l).active = l.active := rfl

@[simp] theorem slot_confirm :
    ((Edit.confirm s).apply l).slot s = { l.slot s with state := stateValid } :=
  if_pos rfl

@[simp] theorem slot_confirm_other : ((Edit.confirm s).apply l).slot s.other = l.slot s.other :=
  if_neg s.other_ne

end Edits

/-! ## The ledger of a record -/

def SlotInfo.descriptor (info : SlotInfo) : Descriptor :=
  ⟨info.size, info.crc32, info.version, info.state⟩

def Metadata.ledger (m : Metadata) : Ledger :=
  ⟨m.active, m.bootFailCount, fun s => (m.slot s).descriptor⟩

/-- The ledger in force. -/
def ledgerAt (flash : Flash) : Option Ledger := (metadataRead flash).map Metadata.ledger

/-- The ledger a writer starts from, that of zero when there is none. -/
def ledgerOrBlank (flash : Flash) : Ledger := (ledgerAt flash).getD .blank

/-- The slot that is not active, slot B when there is no metadata. -/
def freeSlot (flash : Flash) : Slot := (((metadataRead flash).map Metadata.active).getD .a).other

@[simp] theorem Metadata.ledger_active (m : Metadata) : m.ledger.active = m.active := rfl

@[simp] theorem Metadata.ledger_bootFailCount (m : Metadata) :
    m.ledger.bootFailCount = m.bootFailCount := rfl

@[simp] theorem Metadata.ledger_slot (m : Metadata) (s : Slot) :
    m.ledger.slot s = (m.slot s).descriptor := rfl

theorem ledgerAt_of_read {flash : Flash} {m : Metadata} (h : metadataRead flash = some m) :
    ledgerAt flash = some m.ledger := by
  rw [ledgerAt, h]
  rfl

theorem ledgerAt_eq_some {flash : Flash} {l : Ledger} (h : ledgerAt flash = some l) :
    ∃ m, metadataRead flash = some m ∧ m.ledger = l := by
  simpa [ledgerAt] using h

theorem ledgerAt_congr {flash flash' : Flash} (h : Memory.AgreeOn 0x080FF000 4096 flash flash') :
    ledgerAt flash = ledgerAt flash' := by
  rw [ledgerAt, metadataRead_congr h, ledgerAt]

theorem ledgerOrBlank_of_ledgerAt {flash : Flash} {l : Ledger} (h : ledgerAt flash = some l) :
    ledgerOrBlank flash = l := by
  rw [ledgerOrBlank, h]
  rfl

theorem freeSlot_eq (flash : Flash) : freeSlot flash = (ledgerOrBlank flash).active.other := by
  unfold freeSlot ledgerOrBlank ledgerAt
  cases metadataRead flash <;> rfl

theorem ledgerOrBlank_eq (flash : Flash) :
    ledgerOrBlank flash = ((metadataRead flash).getD .zero).ledger := by
  unfold ledgerOrBlank ledgerAt
  cases metadataRead flash with
  | some m => rfl
  | none => exact Ledger.ext rfl rfl (funext fun s => by cases s <;> rfl)

/-- Padding, magic, counter and CRC do not count. -/
theorem stamped_ledger (src : Metadata) (counter : UInt32) :
    (src.stamped counter).ledger = src.ledger := by
  refine Ledger.ext rfl rfl (funext fun s => ?_)
  rw [Metadata.ledger_slot, stamped_slot]
  rfl

@[simp] theorem writtenRecord_ledger (flash : Flash) (src : Metadata) :
    (writtenRecord flash src).ledger = src.ledger :=
  stamped_ledger src _

/-! ## The writers edit the ledger -/

theorem Metadata.ledger_setSlot (m : Metadata) (s : Slot) (info : SlotInfo) :
    (m.setSlot s info).ledger = m.ledger.describe s info.descriptor := by
  refine Ledger.ext (by simp) (by simp) (funext fun t => ?_)
  by_cases h : t = s
  · subst h
    simp
  · rw [Ledger.slot_describe_of_ne _ _ _ _ h, Metadata.ledger_slot,
      m.slot_setSlot_of_ne s t info h, Metadata.ledger_slot]

theorem Metadata.ledger_with (m : Metadata) (active : Slot) (count : UInt8) :
    ({ m with activeSlot := active.toByte, bootFailCount := count } : Metadata).ledger =
      { m.ledger with active := active, bootFailCount := count } := by
  refine Ledger.ext ?_ rfl (funext fun s => by cases s <;> rfl)
  simp [Metadata.active]

theorem Metadata.ledger_with_bootFailCount (m : Metadata) (count : UInt8) :
    ({ m with bootFailCount := count } : Metadata).ledger =
      { m.ledger with bootFailCount := count } :=
  Ledger.ext rfl rfl (funext fun s => by cases s <;> rfl)

/-- The slot named by a record is the one its byte stands for. -/
theorem Metadata.Sound.toByte_active {m : Metadata} (h : m.Sound) :
    m.active.toByte = m.activeSlot := by
  have hle := h.activeSlot
  rw [UInt8.le_iff_toNat_le] at hle
  apply UInt8.toNat_inj.mp
  rw [Metadata.active, Slot.ofByte]
  split
  next hzero => rw [hzero]; rfl
  next hne =>
    have : m.activeSlot.toNat ≠ 0 := fun hzero => hne (UInt8.toNat_inj.mp hzero)
    change 1 = m.activeSlot.toNat
    change m.activeSlot.toNat ≤ 1 at hle
    omega

theorem startRecord_ledger (flash : Flash) (size crc ver : UInt32) :
    (startRecord flash (freeSlot flash) size crc ver).ledger =
      (Edit.start size crc ver).apply (ledgerOrBlank flash) := by
  rw [Edit.apply, ← freeSlot_eq, startRecord, Metadata.ledger_setSlot,
    Metadata.ledger_with _ _ ((metadataRead flash).getD .zero).bootFailCount, ledgerOrBlank_eq]
  cases metadataRead flash <;> rfl

theorem endRecord_ledger (flash : Flash) (slot : Slot) (size crc ver : UInt32) :
    (endRecord flash slot size crc ver).ledger =
      (Edit.install slot size crc ver).apply (ledgerOrBlank flash) := by
  rw [Edit.apply, endRecord, Metadata.ledger_setSlot, Metadata.ledger_with, ledgerOrBlank_eq]
  rfl

theorem attemptRecord_ledger (m : Metadata) :
    (attemptRecord m).ledger = Edit.attempt.apply m.ledger :=
  m.ledger_with_bootFailCount _

theorem rollbackRecord_ledger (m : Metadata) :
    (rollbackRecord m).ledger = Edit.rollback.apply m.ledger := by
  rw [Edit.apply, rollbackRecord, Metadata.ledger_with, Metadata.ledger_setSlot]
  rfl

theorem confirmRecord_ledger (m : Metadata) (slot : Slot) :
    (confirmRecord m slot).ledger = (Edit.confirm slot).apply m.ledger := by
  rw [Edit.apply, confirmRecord, Metadata.ledger_with_bootFailCount, Metadata.ledger_setSlot]
  rfl

/-! ## They ask for records that can be written -/

/-- The record a writer starts from. -/
theorem sound_getD (flash : Flash) : ((metadataRead flash).getD .zero).Sound := by
  cases h : metadataRead flash with
  | some m => exact metadataRead_sound h
  | none => exact ⟨by decide, fun s => by cases s <;> decide, fun s => by cases s <;> decide⟩

theorem Metadata.Sound.setSlot {m : Metadata} (h : m.Sound) (s : Slot) (info : SlotInfo)
    (hstate : info.state ≤ stateValid) (hsize : info.size ≤ slotSize) :
    (m.setSlot s info).Sound := by
  refine ⟨by simpa using h.activeSlot, fun t => ?_, fun t => ?_⟩
  all_goals
    by_cases ht : t = s
    · subst ht
      simpa
    · rw [m.slot_setSlot_of_ne s t info ht]
      first | exact h.state t | exact h.size t

/-- Soundness concerns the active slot and the descriptors only. -/
theorem Metadata.Sound.congr {m m' : Metadata} (h : m.Sound) (hactive : m'.activeSlot ≤ 1)
    (hslot : ∀ s, m'.slot s = m.slot s) : m'.Sound :=
  ⟨hactive, fun s => hslot s ▸ h.state s, fun s => hslot s ▸ h.size s⟩

theorem Metadata.Sound.with_activeSlot {m : Metadata} (h : m.Sound) (active : Slot)
    (count : UInt8) :
    ({ m with activeSlot := active.toByte, bootFailCount := count } : Metadata).Sound :=
  h.congr active.toByte_le fun s => by cases s <;> rfl

theorem startRecord_sound (flash : Flash) (slot : Slot) {size : UInt32} (crc ver : UInt32)
    (hsize : size ≤ slotSize) : (startRecord flash slot size crc ver).Sound :=
  ((sound_getD flash).with_activeSlot _ _).setSlot slot _ (by decide : stateInProgress ≤ _) hsize

theorem endRecord_sound (flash : Flash) (slot : Slot) {size : UInt32} (crc ver : UInt32)
    (hsize : size ≤ slotSize) : (endRecord flash slot size crc ver).Sound :=
  ((sound_getD flash).with_activeSlot _ _).setSlot slot _ (by decide : stateTesting ≤ _) hsize

theorem attemptRecord_sound {m : Metadata} (h : m.Sound) : (attemptRecord m).Sound :=
  h.congr h.activeSlot fun s => by cases s <;> rfl

theorem rollbackRecord_sound {m : Metadata} (h : m.Sound) : (rollbackRecord m).Sound :=
  (h.setSlot m.active { m.slot m.active with state := stateEmpty }
    (by decide : stateEmpty ≤ _) (h.size m.active)).with_activeSlot _ _

theorem confirmRecord_sound {m : Metadata} (h : m.Sound) (slot : Slot) :
    (confirmRecord m slot).Sound := by
  have hset := h.setSlot slot { m.slot slot with state := stateValid }
    (UInt8.le_refl _) (h.size slot)
  exact hset.congr hset.activeSlot fun s => Metadata.slot_with_bootFailCount _ s _

/-! ## Writes edit the ledger or leave it -/

section Writes

variable {flash after : Flash} {src : Metadata}

theorem WriteStopped.ledgerAt (h : WriteStopped flash src after) :
    ledgerAt after = ledgerAt flash ∨ ledgerAt after = some src.ledger := by
  rcases h.metadataRead with hold | ⟨-, -, hnew⟩
  · left
    rw [OtaBoot.ledgerAt, hold, OtaBoot.ledgerAt]
  · right
    rw [ledgerAt_of_read hnew, writtenRecord_ledger]

/-- A write of an edited record, stopped anywhere. -/
theorem WriteStopped.ledgerAt_edit {m : Metadata} {edit : Edit} (h : WriteStopped flash src after)
    (hread : OtaBoot.metadataRead flash = some m) (hsrc : src.ledger = edit.apply m.ledger) :
    OtaBoot.ledgerAt after = OtaBoot.ledgerAt flash ∨
      OtaBoot.ledgerAt after = some (edit.apply (ledgerOrBlank flash)) := by
  rw [ledgerOrBlank_of_ledgerAt (ledgerAt_of_read hread), ← hsrc]
  exact h.ledgerAt

theorem ledgerAt_completeImage (hcounter : CounterOk flash) (h : src.Sound) :
    ledgerAt (completeImage flash src) = some src.ledger := by
  rw [ledgerAt_of_read (metadataRead_completeImage hcounter h), writtenRecord_ledger]

/-- The ledger that an accepted START_UPDATE leaves. -/
theorem ledgerAt_startRecord {size : UInt32} (hcounter : CounterOk flash) (crc ver : UInt32)
    (hsize : size ≤ slotSize) :
    ledgerAt (completeImage flash (startRecord flash (freeSlot flash) size crc ver)) =
      some ((Edit.start size crc ver).apply (ledgerOrBlank flash)) := by
  rw [ledgerAt_completeImage hcounter (startRecord_sound flash _ crc ver hsize),
    startRecord_ledger]

theorem completeImage_stopped (flash : Flash) (src : Metadata) :
    WriteStopped flash src (completeImage flash src) :=
  .inr ⟨6, Nat.le_refl _, rfl⟩

end Writes

end OtaBoot
