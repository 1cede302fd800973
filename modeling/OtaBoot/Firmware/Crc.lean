import Mathlib.Tactic.Common

/-!
# The CRC unit

`drivers/crc.c` programs the CRC peripheral with polynomial `0x04C11DB7`,
initial value `0xFFFFFFFF`, input bytes bit-reversed, output not, and no final
inversion. What the peripheral computes with these settings is the software
model of `tests/host/fake_hw.c`.
-/

namespace OtaBoot

def crcPolynomial : UInt32 := 0x04C11DB7

/-- `CRC_INIT_VALUE`, the register after `crc32_reset`. -/
def crcInitValue : UInt32 := 0xFFFFFFFF

/-- The bit order of one byte reversed (`REV_IN = 01`). -/
def reverseByte (b : UInt8) : UInt8 :=
  let b := ((b &&& 0xF0) >>> 4) ||| ((b &&& 0x0F) <<< 4)
  let b := ((b &&& 0xCC) >>> 2) ||| ((b &&& 0x33) <<< 2)
  ((b &&& 0xAA) >>> 1) ||| ((b &&& 0x55) <<< 1)

/-- One clock of the shift register. -/
def crcShift (crc : UInt32) : UInt32 :=
  if crc &&& 0x80000000 ≠ 0 then (crc <<< 1) ^^^ crcPolynomial else crc <<< 1

/-- One byte written to `CRC_DR`. -/
def crcByte (crc : UInt32) (byte : UInt8) : UInt32 :=
  let crc := crc ^^^ ((reverseByte byte).toUInt32 <<< 24)
  Nat.repeat crcShift 8 crc

/-- The register after `len` more bytes. -/
def crc32Update (crc : UInt32) (data : List UInt8) : UInt32 := data.foldl crcByte crc

/-- `crc32_reset`, whatever the register holds. -/
def crc32Reset (_ : UInt32) : UInt32 := crcInitValue

/-- `crc32_get`. -/
def crc32Get (crc : UInt32) : UInt32 := crc

/-- Reset, feed, read. -/
def crc32Compute (data : List UInt8) : UInt32 := crc32Update crcInitValue data

/-- Feeding in chunks is feeding at once. -/
theorem crc32Update_append (crc : UInt32) (front back : List UInt8) :
    crc32Update crc (front ++ back) = crc32Update (crc32Update crc front) back :=
  List.foldl_append

-- The vector `shared/crc.h` records as measured on silicon.
example : crc32Compute [0x53, 0x54, 0x4D, 0x33, 0x32] = 0xF4F0FF62 := by decide +kernel

end OtaBoot
