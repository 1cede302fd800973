import OtaBoot.Firmware.Flash
import OtaBoot.Firmware.Crc

/-!
# The metadata record

The 48-byte structure of `shared/metadata.h`, its layout in memory, and
`metadata_is_valid`. The fields keep the types of the C structure, so that any
content of a page is some record; the checks say which records can be used.
-/

namespace OtaBoot

open Storage LittleEndian

/-! ## Slots -/

/-- `SLOT_A` and `SLOT_B`. -/
inductive Slot where
  | a
  | b
  deriving DecidableEq, Repr

namespace Slot

/-- `SLOT_ADDR`. -/
def addr : Slot → UInt32
  | a => slotAAddr
  | b => slotBAddr

/-- `OTHER_SLOT`, which is also `1U - slot`. -/
def other : Slot → Slot
  | a => b
  | b => a

def toByte : Slot → UInt8
  | a => 0
  | b => 1

/-- The slot that `SLOT_ADDR` takes a byte for. -/
def ofByte (s : UInt8) : Slot := if s = 0 then a else b

@[simp] theorem ofByte_toByte (s : Slot) : ofByte s.toByte = s := by cases s <;> rfl

@[simp] theorem other_other (s : Slot) : s.other.other = s := by cases s <;> rfl

@[simp] theorem other_ne (s : Slot) : s.other ≠ s := by cases s <;> nofun

@[simp] theorem ne_other (s : Slot) : s ≠ s.other := by cases s <;> nofun

theorem eq_other_iff {s t : Slot} : s = t.other ↔ s ≠ t := by cases s <;> cases t <;> simp [other]

theorem toByte_le (s : Slot) : s.toByte ≤ 1 := by cases s <;> decide

end Slot

/-! ## Firmware states -/

def stateEmpty : UInt8 := 0x00
def stateInProgress : UInt8 := 0x01
def stateTesting : UInt8 := 0x02
def stateValid : UInt8 := 0x03

def maxBootFailures : UInt8 := 3

def metadataMagic : UInt32 := 0x424C4D44

/-! ## Layout -/

/-- `slot_info_t`. -/
structure SlotInfo where
  size : UInt32
  crc32 : UInt32
  version : UInt32
  state : UInt8
  reserved₀ : UInt8
  reserved₁ : UInt8
  reserved₂ : UInt8
  deriving DecidableEq, Repr

/-- `metadata_t`. -/
structure Metadata where
  magic : UInt32
  counter : UInt32
  slotA : SlotInfo
  slotB : SlotInfo
  activeSlot : UInt8
  bootFailCount : UInt8
  reserved₀ : UInt8
  reserved₁ : UInt8
  metaCrc32 : UInt32
  deriving DecidableEq, Repr

/-- All bytes zero. -/
def SlotInfo.zero : SlotInfo := ⟨0, 0, 0, 0, 0, 0, 0⟩

def Metadata.zero : Metadata := ⟨0, 0, .zero, .zero, 0, 0, 0, 0, 0⟩

namespace Metadata

/-- `meta.slot[s]`. -/
def slot (m : Metadata) : Slot → SlotInfo
  | .a => m.slotA
  | .b => m.slotB

/-- The record with `meta.slot[s]` replaced. -/
def setSlot (m : Metadata) (s : Slot) (info : SlotInfo) : Metadata :=
  match s with
  | .a => { m with slotA := info }
  | .b => { m with slotB := info }

/-- The active slot; `metadata_is_valid` leaves no other values than 0 and 1. -/
def active (m : Metadata) : Slot := Slot.ofByte m.activeSlot

section Slots

variable (m : Metadata) (s t : Slot) (info : SlotInfo)

@[simp] theorem slot_setSlot : (m.setSlot s info).slot s = info := by cases s <;> rfl

theorem slot_setSlot_of_ne (h : t ≠ s) : (m.setSlot s info).slot t = m.slot t := by
  cases s <;> cases t <;> first | rfl | exact absurd rfl h

@[simp] theorem slot_other_setSlot : (m.setSlot s info).slot s.other = m.slot s.other :=
  m.slot_setSlot_of_ne s s.other info s.other_ne

@[simp] theorem slot_setSlot_other : (m.setSlot s.other info).slot s = m.slot s :=
  m.slot_setSlot_of_ne s.other s info s.ne_other

@[simp] theorem activeSlot_setSlot : (m.setSlot s info).activeSlot = m.activeSlot := by
  cases s <;> rfl

@[simp] theorem active_setSlot : (m.setSlot s info).active = m.active := by
  cases s <;> rfl

@[simp] theorem bootFailCount_setSlot : (m.setSlot s info).bootFailCount = m.bootFailCount := by
  cases s <;> rfl

@[simp] theorem counter_setSlot : (m.setSlot s info).counter = m.counter := by cases s <;> rfl

@[simp] theorem slot_with_activeSlot (byte : UInt8) :
    ({ m with activeSlot := byte } : Metadata).slot s = m.slot s := by cases s <;> rfl

@[simp] theorem slot_with_bootFailCount (byte : UInt8) :
    ({ m with bootFailCount := byte } : Metadata).slot s = m.slot s := by cases s <;> rfl

end Slots

end Metadata

def SlotInfo.toBytes (info : SlotInfo) : List UInt8 :=
  bytes32 info.size ++ bytes32 info.crc32 ++ bytes32 info.version ++
    [info.state, info.reserved₀, info.reserved₁, info.reserved₂]

/-- The 44 bytes that `meta_crc32` covers. -/
def Metadata.coveredBytes (m : Metadata) : List UInt8 :=
  bytes32 m.magic ++ bytes32 m.counter ++ m.slotA.toBytes ++ m.slotB.toBytes ++
    [m.activeSlot, m.bootFailCount, m.reserved₀, m.reserved₁]

/-- The record as it lies in memory. -/
def Metadata.toBytes (m : Metadata) : List UInt8 := m.coveredBytes ++ bytes32 m.metaCrc32

/-- The word at an address. -/
def wordAt (memory : Memory UInt8) (addr : Nat) : UInt32 :=
  word32 (memory addr) (memory (addr + 1)) (memory (addr + 2)) (memory (addr + 3))

def SlotInfo.at (memory : Memory UInt8) (addr : Nat) : SlotInfo where
  size := wordAt memory addr
  crc32 := wordAt memory (addr + 4)
  version := wordAt memory (addr + 8)
  state := memory (addr + 12)
  reserved₀ := memory (addr + 13)
  reserved₁ := memory (addr + 14)
  reserved₂ := memory (addr + 15)

/-- The record that the bytes at an address are. -/
def Metadata.at (memory : Memory UInt8) (addr : Nat) : Metadata where
  magic := wordAt memory addr
  counter := wordAt memory (addr + 4)
  slotA := SlotInfo.at memory (addr + 8)
  slotB := SlotInfo.at memory (addr + 24)
  activeSlot := memory (addr + 40)
  bootFailCount := memory (addr + 41)
  reserved₀ := memory (addr + 42)
  reserved₁ := memory (addr + 43)
  metaCrc32 := wordAt memory (addr + 44)

@[simp] theorem SlotInfo.length_toBytes (info : SlotInfo) : info.toBytes.length = 16 := rfl

@[simp] theorem Metadata.length_coveredBytes (m : Metadata) : m.coveredBytes.length = 44 := rfl

@[simp] theorem Metadata.length_toBytes (m : Metadata) : m.toBytes.length = 48 := rfl

theorem bytes32_wordAt (memory : Memory UInt8) (addr : Nat) :
    bytes32 (wordAt memory addr) = memory.read addr 4 := by
  simp [wordAt, Memory.read, List.range, List.range.loop]

theorem SlotInfo.toBytes_at (memory : Memory UInt8) (addr : Nat) :
    (SlotInfo.at memory addr).toBytes = memory.read addr 16 := by
  simp only [SlotInfo.toBytes, SlotInfo.at, bytes32_wordAt]
  rw [show (16 : Nat) = 4 + 4 + 4 + 4 from rfl]
  simp only [Memory.read_add]
  simp [Memory.read, List.range, List.range.loop]

/-- Copying a record out of memory copies its bytes. -/
theorem Metadata.toBytes_at (memory : Memory UInt8) (addr : Nat) :
    (Metadata.at memory addr).toBytes = memory.read addr 48 := by
  simp only [Metadata.toBytes, Metadata.coveredBytes, Metadata.at, bytes32_wordAt,
    SlotInfo.toBytes_at]
  -- field by field
  rw [show (48 : Nat) = 4 + 4 + 16 + 16 + 4 + 4 from rfl]
  simp only [Memory.read_add]
  simp [Memory.read, List.range, List.range.loop]

theorem bytes32_injective {v w : UInt32} (h : bytes32 v = bytes32 w) : v = w := by
  simp only [bytes32, List.cons.injEq] at h
  obtain ⟨h₀, h₁, h₂, h₃, -⟩ := h
  rw [← word32_bytes v, ← word32_bytes w, h₀, h₁, h₂, h₃]

theorem SlotInfo.toBytes_injective {i j : SlotInfo} (h : i.toBytes = j.toBytes) : i = j := by
  simp only [SlotInfo.toBytes] at h
  obtain ⟨h, htail⟩ := List.append_inj h rfl
  obtain ⟨h, hversion⟩ := List.append_inj h rfl
  obtain ⟨hsize, hcrc⟩ := List.append_inj h rfl
  have hsize := bytes32_injective hsize
  have hcrc := bytes32_injective hcrc
  have hversion := bytes32_injective hversion
  cases i
  cases j
  simp_all

/-- The bytes determine the record: the structure has no padding. -/
theorem Metadata.toBytes_injective {m n : Metadata} (h : m.toBytes = n.toBytes) : m = n := by
  simp only [Metadata.toBytes, Metadata.coveredBytes] at h
  obtain ⟨h, hmetaCrc⟩ := List.append_inj h rfl
  obtain ⟨h, htail⟩ := List.append_inj h rfl
  obtain ⟨h, hslotB⟩ := List.append_inj h rfl
  obtain ⟨h, hslotA⟩ := List.append_inj h rfl
  obtain ⟨hmagic, hcounter⟩ := List.append_inj h rfl
  have hmagic := bytes32_injective hmagic
  have hcounter := bytes32_injective hcounter
  have hslotA := SlotInfo.toBytes_injective hslotA
  have hslotB := SlotInfo.toBytes_injective hslotB
  have hmetaCrc := bytes32_injective hmetaCrc
  cases m
  cases n
  simp_all

theorem Metadata.at_congr {memory memory' : Memory UInt8} {addr : Nat}
    (h : Memory.AgreeOn addr 48 memory memory') :
    Metadata.at memory addr = Metadata.at memory' addr :=
  Metadata.toBytes_injective (by rw [toBytes_at, toBytes_at, h.read_eq])

/-- A stored record is read back. -/
@[simp] theorem Metadata.at_store (memory : Memory UInt8) (addr : Nat) (m : Metadata) :
    Metadata.at (memory.store addr m.toBytes) addr = m := by
  apply Metadata.toBytes_injective
  rw [toBytes_at, show (48 : Nat) = m.toBytes.length from rfl, Memory.read_store_self]

/-! ## Validity -/

/-- `metadata_is_valid`: magic, CRC, and fields that can be acted on. -/
def metadataIsValid (m : Metadata) : Bool :=
  if m.magic ≠ metadataMagic then false
  else
    let computed := crc32Compute (m.toBytes.take 44)
    if computed ≠ m.metaCrc32 then false
    else if m.activeSlot > Slot.toByte .b then false
    else [Slot.a, Slot.b].all fun s =>
      if (m.slot s).state > stateValid then false
      else if (m.slot s).size > slotSize then false
      else true

/-- The fields can be acted on. -/
structure Metadata.Sound (m : Metadata) : Prop where
  activeSlot : m.activeSlot ≤ 1
  state : ∀ s, (m.slot s).state ≤ stateValid
  size : ∀ s, (m.slot s).size ≤ slotSize

theorem metadataIsValid_iff (m : Metadata) :
    metadataIsValid m = true ↔
      m.magic = metadataMagic ∧ crc32Compute m.coveredBytes = m.metaCrc32 ∧ m.Sound := by
  have htake : m.toBytes.take 44 = m.coveredBytes := List.take_left' rfl
  have hone (s : Slot) : (if (m.slot s).state > stateValid then false
      else if (m.slot s).size > slotSize then false else true) = true ↔
      (m.slot s).state ≤ stateValid ∧ (m.slot s).size ≤ slotSize := by
    by_cases hstate : (m.slot s).state > stateValid
    · simp [hstate, UInt8.not_le.mpr hstate]
    · by_cases hsize : (m.slot s).size > slotSize
      · simp [hstate, hsize, UInt32.not_le.mpr hsize]
      · simp [UInt8.not_lt.mp hstate, UInt32.not_lt.mp hsize]
  unfold metadataIsValid
  by_cases hmagic : m.magic = metadataMagic
  · by_cases hcrc : crc32Compute m.coveredBytes = m.metaCrc32
    · by_cases hactive : m.activeSlot > Slot.toByte .b
      · simp only [hmagic, htake, hcrc, hactive, ne_eq, not_true_eq_false, if_false, if_true]
        exact iff_of_false nofun fun h => absurd hactive (UInt8.not_lt.mpr h.2.2.activeSlot)
      · simp only [hmagic, htake, hcrc, hactive, ne_eq, not_true_eq_false, if_false,
          List.all_cons, List.all_nil, Bool.and_true, Bool.and_eq_true, hone, true_and]
        refine ⟨fun h => ⟨UInt8.not_lt.mp hactive, fun s => ?_, fun s => ?_⟩,
          fun h => ⟨⟨h.state .a, h.size .a⟩, h.state .b, h.size .b⟩⟩
        · cases s
          · exact h.1.1
          · exact h.2.1
        · cases s
          · exact h.1.2
          · exact h.2.2
    · simp [hmagic, htake, hcrc]
  · simp [hmagic]

end OtaBoot
