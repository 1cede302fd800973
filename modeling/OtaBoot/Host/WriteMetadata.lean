import Mathlib.Data.Int.Bitwise
import OtaBoot.Foundation.Struct
import OtaBoot.Host.Frame

/-!
# Bootstrapping over SWD

`tools/write_metadata.py` writes a metadata record without the bootloader, for an
image that was flashed with a probe. It packs and unpacks the record with formats
of its own, and selects between the two pages with a loop of its own. What
OpenOCD is asked to dump, erase and write, it dumps, erases and writes.
-/

namespace OtaBoot.Host.WriteMetadata

open Storage LittleEndian Struct

/-! ## Code -/

inductive ToolError where
  | systemExit
  | structError
  deriving DecidableEq, Repr

def metadataMagic : Int := 0x424C4D44
def metaPageAAddr : Nat := 0x080FF000
def metaPageBAddr : Nat := 0x080FF800
def slotSize : Nat := 480 * 1024
def stateEmpty : Int := 0x00
def stateValid : Int := 0x03

/-- `SLOT_FMT`, `"<IIIB3s"`. -/
def slotFmt : List Field := [.uint 4, .uint 4, .uint 4, .uint 1, .str 3]

/-- `META_FMT`. -/
def metaFmt : List Field :=
  [.uint 4, .uint 4] ++ slotFmt ++ slotFmt ++ [.uint 1, .uint 1, .str 2, .uint 4]

/-- What `struct` raises. -/
def orStructError {α : Type} : Option α → Except ToolError α
  | some a => .ok a
  | none => .error .structError

/-- An entry of `images`: size, CRC and version. -/
structure Image where
  size : Int
  crc : Int
  version : Int
  deriving DecidableEq, Repr

/-- The fields of one slot in `build_metadata`. -/
def slotFields : Option Image → List Value
  | some img =>
      [.int img.size, .int img.crc, .int img.version, .int stateValid, .bytes [0, 0, 0]]
  | none => [.int 0, .int 0, .int 0, .int stateEmpty, .bytes [0, 0, 0]]

def buildMetadata (active : Int) (images : Slot → Option Image) (counter : Int) :
    Except ToolError (List UInt8) := do
  let fields := [.int metadataMagic, .int counter] ++ slotFields (images .a) ++
    slotFields (images .b) ++ [.int active, .int 0, .bytes [0, 0]]
  -- META_FMT[:-1]: everything but the CRC
  let head ← orStructError (pack metaFmt.dropLast fields)
  if head.length ≠ 44 then throw .systemExit
  else do
    let crc ← orStructError (pack [.uint 4] [.int (crc32Stm32 head)])
    pure (head ++ crc)

/-- A number in an unpacked tuple. -/
def intAt (fields : List Value) (i : Nat) : Int :=
  match fields[i]? with
  | some (.int n) => n
  | _ => 0

/-- The loop of `read_existing`: one page against the best so far. -/
def considerPage (best : Option (List Value)) (raw : List UInt8) :
    Except ToolError (Option (List Value)) :=
  if raw.length ≠ 48 then pure best
  else do
    let fields ← orStructError (unpack metaFmt raw)
    if intAt fields 0 ≠ metadataMagic then pure best
    else if (crc32Stm32 (raw.take 44) : Int) ≠ intAt fields 15 then pure best
    else
      match best with
      | none => pure (some fields)
      | some b => if intAt fields 1 > intAt b 1 then pure (some fields) else pure best

/-- `read_existing`, on what was dumped of the two pages. -/
def readExisting (pageA pageB : List UInt8) : Except ToolError (Option (List Value)) :=
  [pageA, pageB].foldlM considerPage none

/-- The version that its dot-separated numbers make up. -/
def versionOf (parts : List Int) : Int :=
  let parts := parts ++ List.replicate (3 - parts.length) 0
  ((parts.getD 0 0 <<< 16).lor (parts.getD 1 0 <<< 8)).lor (parts.getD 2 0)

/-- What `main` takes over from the record that is there: the counter, and in
`images` the other slot. -/
def preserve (existing : Option (List Value)) (slot : Slot) (images : Slot → Option Image) :
    Int × (Slot → Option Image) :=
  match existing with
  | none => (1, images)
  | some fields =>
      let other := slot.other
      -- slot[other] starts here in the tuple
      let base := 2 + other.toByte.toNat * 5
      (intAt fields 1 + 1,
        if intAt fields (base + 3) ≠ stateEmpty ∧ intAt fields base ≠ 0 then
          Function.update images other
            (some ⟨intAt fields base, intAt fields (base + 1), intAt fields (base + 2)⟩)
        else images)

/-- The padding in `main`. -/
def padded (data : List UInt8) : List UInt8 :=
  if data.length % 8 ≠ 0 then data ++ List.replicate (8 - data.length % 8) 0xFF else data

/-- `main` without `--dry-run`, on a board with this flash. -/
def main (flash : Flash) (slot : Slot) (data : List UInt8) (parts : List Int) :
    Except ToolError Flash := do
  let data := padded data
  if data = [] ∨ data.length > slotSize then throw .systemExit
  else do
    let images : Slot → Option Image := fun s =>
      if s = slot then some ⟨data.length, crc32Stm32 data, versionOf parts⟩ else none
    let existing ← readExisting (flash.read metaPageAAddr 48) (flash.read metaPageBAddr 48)
    let kept := preserve existing slot images
    let record ← buildMetadata slot.toByte.toNat kept.2 kept.1
    if record.length ≠ 48 then throw .systemExit
    -- both pages are erased, and one record is written
    else pure ((flash.fill metaPageAAddr 4096 0xFF).store metaPageAAddr record)

theorem orStructError_bind {α β : Type} (a : α) (f : α → Except ToolError β) :
    orStructError (some a) >>= f = f a := rfl

end OtaBoot.Host.WriteMetadata
