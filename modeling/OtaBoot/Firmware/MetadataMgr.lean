import OtaBoot.Foundation.DualCopy
import OtaBoot.Firmware.Metadata

/-!
# The metadata manager

`drivers/metadata_mgr.c`: two pages hold a copy each, the valid copy with the
higher counter is read, and a new version goes to the other page. The results
say which record is found after a write that stopped anywhere.
-/

namespace OtaBoot

open Storage

/-! ## Code -/

/-- `meta_pages`. -/
def metaPage : Side → UInt32
  | .first => metaPageAAddr
  | .second => metaPageBAddr

/-- The record on a page, when it is usable. -/
def loadPage (flash : Flash) (index : Side) : Option Metadata :=
  let m := Metadata.at flash (metaPage index).toNat
  if metadataIsValid m then some m else none

def metadataRead (flash : Flash) : Option Metadata :=
  match loadPage flash .first, loadPage flash .second with
  | none, none => none
  -- equal counters: the first page
  | some a, some b => if b.counter > a.counter then some b else some a
  | some a, none => some a
  | none, some b => some b

/-- The page to write to and the counter to use. -/
def selectTarget (flash : Flash) : Side × UInt32 :=
  match loadPage flash .first, loadPage flash .second with
  | none, none => (.first, 1)
  | some a, some b =>
      if b.counter > a.counter then (.first, b.counter + 1) else (.second, a.counter + 1)
  | some a, none => (.second, a.counter + 1)
  | none, some b => (.first, b.counter + 1)

/-- `metadata_status_t`; a null argument cannot be expressed. -/
inductive MetadataStatus where
  | ok
  | errErase
  | errWrite
  | errVerify
  deriving DecidableEq, Repr

/-- The fields of a descriptor that `metadata_write` carries over. -/
def SlotInfo.carried (src : SlotInfo) : SlotInfo :=
  { SlotInfo.zero with
    size := src.size, crc32 := src.crc32, version := src.version, state := src.state }

@[simp] theorem SlotInfo.carried_size (src : SlotInfo) : src.carried.size = src.size := rfl
@[simp] theorem SlotInfo.carried_crc32 (src : SlotInfo) : src.carried.crc32 = src.crc32 := rfl
@[simp] theorem SlotInfo.carried_version (src : SlotInfo) : src.carried.version = src.version := rfl
@[simp] theorem SlotInfo.carried_state (src : SlotInfo) : src.carried.state = src.state := rfl

/-- The record that `metadata_write` builds from zero. -/
def Metadata.stamped (src : Metadata) (counter : UInt32) : Metadata :=
  -- padding and reserved fields stay zero
  let out := { Metadata.zero with
    magic := metadataMagic
    counter := counter
    activeSlot := src.activeSlot
    bootFailCount := src.bootFailCount
    slotA := src.slotA.carried
    slotB := src.slotB.carried }
  { out with metaCrc32 := crc32Compute (out.toBytes.take 44) }

def metadataWrite (src : Metadata) : FlashM MetadataStatus := do
  let flash ← Faulty.read
  let page := (selectTarget flash).1
  let counter := (selectTarget flash).2
  let out := src.stamped counter
  let addr := metaPage page
  let st ← flashErasePage addr
  if st ≠ .ok then pure .errErase
  else
    let st ← flashWrite addr out.toBytes
    if st ≠ .ok then pure .errWrite
    else
      let flash ← Faulty.read
      match loadPage flash page with
      | none => pure .errVerify
      | some reread => if reread.counter ≠ counter then pure .errVerify else pure .ok

/-! ## Selection is that of a record kept in two copies -/

theorem metadataRead_eq_authoritative (flash : Flash) :
    metadataRead flash =
      DualCopy.authoritative (fun m : Metadata => m.counter.toNat) (loadPage flash) := by
  unfold metadataRead DualCopy.authoritative
  cases loadPage flash .first <;> cases loadPage flash .second <;>
    simp [UInt32.lt_iff_toNat_lt]

theorem selectTarget_page (flash : Flash) :
    (selectTarget flash).1 =
      DualCopy.target (fun m : Metadata => m.counter.toNat) (loadPage flash) := by
  unfold selectTarget DualCopy.target
  cases loadPage flash .first <;> cases loadPage flash .second <;>
    simp [UInt32.lt_iff_toNat_lt]
  split <;> rfl

theorem selectTarget_counter (flash : Flash) :
    (selectTarget flash).2 =
      match metadataRead flash with
      | none => 1
      | some m => m.counter + 1 := by
  unfold selectTarget metadataRead
  cases loadPage flash .first <;> cases loadPage flash .second <;> simp
  split <;> simp [*]

theorem loadPage_eq_some {flash : Flash} {side : Side} {m : Metadata}
    (h : loadPage flash side = some m) :
    m = Metadata.at flash (metaPage side).toNat ∧ metadataIsValid m = true := by
  simp only [loadPage] at h
  split at h
  next hvalid =>
    rw [Option.some.injEq] at h
    exact ⟨h.symm, h ▸ hvalid⟩
  next => cases h

/-- A record that is read lies on a page. -/
theorem exists_loadPage_of_metadataRead {flash : Flash} {m : Metadata}
    (h : metadataRead flash = some m) : ∃ side, loadPage flash side = some m := by
  rw [metadataRead_eq_authoritative, DualCopy.authoritative_eq_bind_holder] at h
  cases hholder : DualCopy.holder (fun m : Metadata => m.counter.toNat) (loadPage flash) with
  | none => simp [hholder] at h
  | some side => exact ⟨side, by simpa [hholder] using h⟩

theorem metadataRead_valid {flash : Flash} {m : Metadata} (h : metadataRead flash = some m) :
    metadataIsValid m = true := by
  obtain ⟨side, hside⟩ := exists_loadPage_of_metadataRead h
  exact (loadPage_eq_some hside).2

theorem metadataRead_sound {flash : Flash} {m : Metadata} (h : metadataRead flash = some m) :
    m.Sound :=
  ((metadataIsValid_iff m).mp (metadataRead_valid h)).2.2

/-! ## Pages -/

theorem loadPage_congr {flash flash' : Flash} {side : Side}
    (h : Memory.AgreeOn (metaPage side).toNat 48 flash flash') :
    loadPage flash side = loadPage flash' side := by
  simp only [loadPage, Metadata.at_congr h]

theorem metaPage_erasable (side : Side) : ErasablePage (metaPage side) := by
  cases side <;> constructor <;> decide

theorem metaPage_writable (side : Side) : WritableRange (metaPage side) 48 := by
  cases side <;> constructor <;> decide

/-- The two pages do not overlap. -/
theorem metaPage_disjoint {side side' : Side} (h : side ≠ side') :
    (metaPage side).toNat + 2048 ≤ (metaPage side').toNat ∨
      (metaPage side').toNat + 2048 ≤ (metaPage side).toNat := by
  cases side <;> cases side' <;> first | exact absurd rfl h | decide

/-- Where the metadata lies. -/
theorem metaPage_bounds (side : Side) :
    0x080FF000 ≤ (metaPage side).toNat ∧ (metaPage side).toNat + 2048 ≤ 0x08100000 := by
  cases side <;> decide

/-- Metadata is read from its two pages only. -/
theorem metadataRead_congr {flash flash' : Flash}
    (h : Memory.AgreeOn 0x080FF000 4096 flash flash') :
    metadataRead flash = metadataRead flash' := by
  have hpage (side : Side) : loadPage flash side = loadPage flash' side := by
    have := metaPage_bounds side
    exact loadPage_congr (h.mono (by omega) (by omega))
  simp only [metadataRead, hpage]

/-- A record that names no slot is rejected, whatever its CRC. -/
theorem loadPage_eq_none {flash : Flash} {side : Side}
    (h : flash ((metaPage side).toNat + 40) = erasedByte) : loadPage flash side = none := by
  have hinvalid : metadataIsValid (Metadata.at flash (metaPage side).toNat) = false := by
    rw [Bool.eq_false_iff, ne_eq, metadataIsValid_iff]
    rintro ⟨-, -, hsound⟩
    have hle : flash ((metaPage side).toNat + 40) ≤ 1 := hsound.activeSlot
    rw [h] at hle
    exact absurd hle (by decide)
  simp [loadPage, hinvalid]

/-- Erased flash holds no metadata. -/
theorem metadataRead_erased : metadataRead (fun _ => erasedByte) = none := by
  simp only [metadataRead, loadPage_eq_none]

/-! ## The record that is built -/

section Stamped

variable (src : Metadata) (counter : UInt32)

theorem coveredBytes_with_metaCrc32 (m : Metadata) (crc : UInt32) :
    ({ m with metaCrc32 := crc } : Metadata).coveredBytes = m.coveredBytes := rfl

theorem stamped_crc :
    crc32Compute (src.stamped counter).coveredBytes = (src.stamped counter).metaCrc32 := by
  rw [Metadata.stamped, coveredBytes_with_metaCrc32]
  congr 1

@[simp] theorem stamped_slot (s : Slot) :
    (src.stamped counter).slot s = (src.slot s).carried := by
  cases s <;> rfl

@[simp] theorem stamped_counter : (src.stamped counter).counter = counter := rfl

@[simp] theorem stamped_activeSlot : (src.stamped counter).activeSlot = src.activeSlot := rfl

@[simp] theorem stamped_active : (src.stamped counter).active = src.active := rfl

@[simp] theorem stamped_bootFailCount :
    (src.stamped counter).bootFailCount = src.bootFailCount := rfl

/-- What is built is usable exactly when the fields it was given can be acted
on. -/
theorem stamped_valid_iff : metadataIsValid (src.stamped counter) = true ↔ src.Sound := by
  rw [metadataIsValid_iff]
  constructor
  · rintro ⟨-, -, hactive, hstate, hsize⟩
    exact ⟨hactive, fun s => by simpa using hstate s, fun s => by simpa using hsize s⟩
  · intro h
    exact ⟨rfl, stamped_crc src counter, h.activeSlot, fun s => by simpa using h.state s,
      fun s => by simpa using h.size s⟩

end Stamped

/-! ## Writes that stop anywhere -/

/-- The record a write puts into flash. -/
def writtenRecord (flash : Flash) (src : Metadata) : Metadata :=
  src.stamped (selectTarget flash).2

/-- Flash after the erase of the target page and the first `count` of the six
double-words. -/
def tornImage (flash : Flash) (src : Metadata) (count : Nat) : Flash :=
  let addr := metaPage (selectTarget flash).1
  (flash.erased addr).store addr.toNat ((writtenRecord flash src).toBytes.take (8 * count))

/-- What a write that stopped anywhere leaves in flash. -/
def WriteStopped (before : Flash) (src : Metadata) (after : Flash) : Prop :=
  after = before ∨ ∃ count ≤ 6, after = tornImage before src count

/-- What a write that ran to its end leaves in flash. -/
def completeImage (flash : Flash) (src : Metadata) : Flash := tornImage flash src 6

section Torn

variable {flash : Flash} {src : Metadata} {count : Nat}

theorem completeImage_eq :
    completeImage flash src =
      (flash.erased (metaPage (selectTarget flash).1)).store
        (metaPage (selectTarget flash).1).toNat (writtenRecord flash src).toBytes := rfl

/-- A write touches its target page only. -/
theorem tornImage_agreeOn {addr len : Nat}
    (h : addr + len ≤ (metaPage (selectTarget flash).1).toNat ∨
      (metaPage (selectTarget flash).1).toNat + 2048 ≤ addr) :
    Memory.AgreeOn addr len (tornImage flash src count) flash := by
  refine (Memory.store_agreeOn _ _ _ ?_).trans (Memory.fill_agreeOn _ _ _ _ h)
  simp only [List.length_take, Metadata.length_toBytes]
  omega

/-- A write leaves everything below the metadata pages alone. -/
theorem WriteStopped.agreeOn {after : Flash} (h : WriteStopped flash src after) {addr len : Nat}
    (hbelow : addr + len ≤ 0x080FF000) : Memory.AgreeOn addr len after flash := by
  rcases h with rfl | ⟨count, -, rfl⟩
  · exact .refl _ _ _
  · have := metaPage_bounds (selectTarget flash).1
    exact tornImage_agreeOn (.inl (by omega))

/-- A write leaves the other page alone. -/
theorem loadPage_tornImage_other (flash : Flash) (src : Metadata) (count : Nat) (side : Side)
    (h : side ≠ DualCopy.target (fun m : Metadata => m.counter.toNat) (loadPage flash)) :
    loadPage (tornImage flash src count) side = loadPage flash side := by
  rw [← selectTarget_page] at h
  have := metaPage_disjoint h
  exact loadPage_congr (tornImage_agreeOn (by omega))

/-- The last double-word holds `active_slot`; as long as it is missing, the
page holds nothing usable. -/
theorem loadPage_tornImage_target (h : count < 6) :
    loadPage (tornImage flash src count) (selectTarget flash).1 = none := by
  apply loadPage_eq_none
  rw [tornImage, Memory.store_apply_of_ge _ _ _ _ (by simp; omega)]
  exact Memory.fill_apply_of_mem _ _ (by omega) (by omega)

theorem loadPage_completeImage :
    loadPage (completeImage flash src) (selectTarget flash).1 =
      if metadataIsValid (writtenRecord flash src) then some (writtenRecord flash src)
      else none := by
  simp only [loadPage, completeImage_eq, Metadata.at_store]

theorem writtenRecord_valid_iff :
    metadataIsValid (writtenRecord flash src) = true ↔ src.Sound :=
  stamped_valid_iff src _

/-- Until its last double-word is in flash, a write changes nothing. -/
theorem metadataRead_tornImage (h : count < 6) :
    metadataRead (tornImage flash src count) = metadataRead flash := by
  rw [metadataRead_eq_authoritative, metadataRead_eq_authoritative]
  apply DualCopy.authoritative_of_unusable (loadPage_tornImage_other flash src count)
  rw [← selectTarget_page]
  exact loadPage_tornImage_target h

/-- A record whose fields cannot be acted on never takes effect. -/
theorem metadataRead_completeImage_unsound (h : ¬ src.Sound) :
    metadataRead (completeImage flash src) = metadataRead flash := by
  rw [metadataRead_eq_authoritative, metadataRead_eq_authoritative]
  apply DualCopy.authoritative_of_unusable (loadPage_tornImage_other flash src 6)
  rw [← selectTarget_page, ← completeImage, loadPage_completeImage, if_neg]
  rwa [writtenRecord_valid_iff]

/-- The write counter can still be incremented. -/
def CounterOk (flash : Flash) : Prop :=
  ∀ m, metadataRead flash = some m → m.counter.toNat < 2 ^ 32 - 1

theorem toNat_counter_succ {m : Metadata} (h : m.counter.toNat < 2 ^ 32 - 1) :
    (m.counter + 1).toNat = m.counter.toNat + 1 := by
  rw [UInt32.toNat_add, UInt32.toNat_one, Nat.mod_eq_of_lt (by omega)]

/-- With its last double-word in flash, the new record is the one that is read. -/
theorem metadataRead_completeImage (hcounter : CounterOk flash) (h : src.Sound) :
    metadataRead (completeImage flash src) = some (writtenRecord flash src) := by
  rw [metadataRead_eq_authoritative]
  apply DualCopy.authoritative_of_newer (loadPage_tornImage_other flash src 6)
  · rw [← selectTarget_page, ← completeImage, loadPage_completeImage,
      if_pos (writtenRecord_valid_iff.mpr h)]
  · intro old hold
    rw [← metadataRead_eq_authoritative] at hold
    rw [writtenRecord, stamped_counter, selectTarget_counter, hold]
    simp only [toNat_counter_succ (hcounter old hold)]
    omega

/-- Past the last counter value the old record stays in force. -/
theorem metadataRead_completeImage_wrapped {old : Metadata} (hold : metadataRead flash = some old)
    (hwrap : old.counter.toNat = 2 ^ 32 - 1) (h : src.Sound) :
    metadataRead (completeImage flash src) = some old := by
  have hzero : old.counter + 1 = 0 := by
    apply UInt32.toNat_inj.mp
    rw [UInt32.toNat_add, hwrap]
    rfl
  rw [metadataRead_eq_authoritative] at hold ⊢
  have hnew : loadPage (completeImage flash src)
      (DualCopy.target (fun m : Metadata => m.counter.toNat) (loadPage flash)) =
      some (writtenRecord flash src) := by
    rw [← selectTarget_page, loadPage_completeImage, if_pos (writtenRecord_valid_iff.mpr h)]
  apply DualCopy.authoritative_of_older (loadPage_tornImage_other flash src 6) hnew hold
  rw [writtenRecord, stamped_counter, selectTarget_counter, metadataRead_eq_authoritative, hold]
  simp [hzero, hwrap]

/-- Whatever happens to a write, the old record or the new one is read. -/
theorem WriteStopped.metadataRead {after : Flash} (h : WriteStopped flash src after) :
    metadataRead after = metadataRead flash ∨
      src.Sound ∧ after = completeImage flash src ∧
        metadataRead after = some (writtenRecord flash src) := by
  rcases h with rfl | ⟨count, hcount, rfl⟩
  · exact .inl rfl
  rcases Nat.lt_or_eq_of_le hcount with hlt | rfl
  · exact .inl (metadataRead_tornImage hlt)
  by_cases hsound : src.Sound
  · by_cases hcounter : CounterOk flash
    · exact .inr ⟨hsound, rfl, metadataRead_completeImage hcounter hsound⟩
    -- the counter wraps to zero: the old record stays newer
    · simp only [CounterOk, not_forall] at hcounter
      obtain ⟨old, hold, hlast⟩ := hcounter
      have := old.counter.toNat_lt
      left
      rw [hold]
      exact metadataRead_completeImage_wrapped hold (by omega) hsound
  · exact .inl (metadataRead_completeImage_unsound hsound)

end Torn

/-! ## The write itself -/

variable {c : Climate Flash FlashCall}

theorem PartlyWritten.tornImage {before after : Flash} {src : Metadata}
    (h : PartlyWritten (before.erased (metaPage (selectTarget before).1))
      (metaPage (selectTarget before).1).toNat (writtenRecord before src).toBytes after) :
    WriteStopped before src after := by
  obtain ⟨count, hcount, rfl⟩ := h
  rw [Metadata.length_toBytes] at hcount
  exact .inr ⟨count, by omega, rfl⟩

theorem WriteStopped.erased (before : Flash) (src : Metadata) :
    WriteStopped before src (before.erased (metaPage (selectTarget before).1)) :=
  PartlyWritten.tornImage (.none _ _ _)

/-- A write stops somewhere; it has run to its end when it reports success, and
it reports success for a sound record unless an error is reported to it. -/
theorem metadataWrite_triple (before : Flash) (src : Metadata)
    (herase : c.calls before (.erasePage (metaPage (selectTarget before).1)))
    (hwrite : c.calls (before.erased (metaPage (selectTarget before).1))
      (.write (metaPage (selectTarget before).1) (writtenRecord before src).toBytes)) :
    Triple c (· = before) (metadataWrite src)
      (fun st after => WriteStopped before src after ∧
        (st = .ok → src.Sound ∧ after = completeImage before src) ∧
        (c.ReportsNoError → src.Sound → st = .ok))
      (WriteStopped before src) := by
  unfold metadataWrite
  refine Triple.read_at (Triple.bind ((flashErasePage_triple (metaPage_erasable _) herase).conseq
    (fun _ h => h) (fun _ _ h => h) ?_) fun st => ?_)
  · rintro after (rfl | rfl)
    · exact .inl rfl
    · exact .erased _ _
  refine Triple.ite (fun hst => Triple.pure ?_) fun hst => ?_
  · rintro after ⟨hafter, -, hquiet⟩
    refine ⟨?_, nofun, fun h _ => absurd (hquiet h) hst⟩
    rcases hafter with rfl | rfl
    · exact .inl rfl
    · exact .erased _ _
  refine Triple.bind ((flashWrite_triple (metaPage_writable _) hwrite).conseq
    (fun after h => h.2.1 (Decidable.not_not.mp hst)) (fun _ _ h => h)
    (fun _ h => h.tornImage)) fun st => ?_
  -- the page is blank, so that only a reported error can fail the write
  refine Triple.ite (fun hst => Triple.pure ?_) fun hst => ?_
  · rintro after ⟨hafter, -, hquiet⟩
    refine ⟨hafter.tornImage, nofun, fun h _ => absurd (hquiet h ?_) hst⟩
    exact Flash.blank_erased _ (Nat.le_refl _) (by simp)
  refine Triple.of_state fun after hafter => ?_
  obtain rfl : after = completeImage before src := hafter.2.1 (Decidable.not_not.mp hst)
  have hstopped : WriteStopped before src (completeImage before src) := .inr ⟨6, Nat.le_refl _, rfl⟩
  refine Triple.read_at ?_
  rw [loadPage_completeImage]
  by_cases hsound : src.Sound
  · rw [if_pos (writtenRecord_valid_iff.mpr hsound)]
    refine Triple.ite (fun hne => absurd rfl hne) fun _ => Triple.pure_at ?_
    exact ⟨hstopped, fun _ => ⟨hsound, rfl⟩, fun _ _ => rfl⟩
  · rw [if_neg (by rwa [writtenRecord_valid_iff])]
    exact Triple.pure_at ⟨hstopped, nofun, fun _ h => absurd h hsound⟩

end OtaBoot
