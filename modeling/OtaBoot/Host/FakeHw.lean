import OtaBoot.Firmware.Flash

/-!
# The test double of the flash

What `tests/host/fake_hw.c` puts in place of the flash driver when the protocol and
metadata managers are compiled for the host. It works on the whole range of a call at
once, where the driver works on one double-word after the other, and it does not know
of the bootloader's pages.
-/

namespace OtaBoot

/-- What the harness keeps: the mapped array and what the tests assert on. -/
structure FakeHw where
  flash : Flash
  /-- `fake_erase_count`. -/
  eraseCount : UInt32
  /-- `fake_write_count`. -/
  writeCount : UInt32

namespace FakeHw

/-- `in_range`. -/
def inRange (address len : UInt32) : Bool :=
  if address < flashBaseAddr then false
  else if address + len > flashBaseAddr + flashTotalSize then false
  else if address + len < address then false
  else true

/-- `flash_erase_page`. -/
def flashErasePage (h : FakeHw) (address : UInt32) : FlashStatus × FakeHw :=
  if ¬ inRange address flashPageSize then (.errRange, h)
  else if address % flashPageSize ≠ 0 then (.errAlign, h)
  else
    (.ok,
      { h with
        flash := h.flash.fill address.toNat flashPageSize.toNat erasedByte
        eraseCount := h.eraseCount + 1 })

/-- `flash_write`. -/
def flashWrite (h : FakeHw) (address : UInt32) (data : List UInt8) : FlashStatus × FakeHw :=
  let len := UInt32.ofNat data.length
  if len = 0 then (.errAlign, h)
  else if address % 8 ≠ 0 ∨ len % 8 ≠ 0 then (.errAlign, h)
  else if ¬ inRange address len then (.errRange, h)
  else if (h.flash.read address.toNat data.length).any (· != erasedByte) then (.errProg, h)
  else
    let flash := h.flash.store address.toNat data
    let h := { h with flash, writeCount := h.writeCount + 1 }
    if flash.read address.toNat data.length ≠ data then (.errVerify, h) else (.ok, h)

/-- One of the two. -/
def answer (h : FakeHw) : FlashCall → FlashStatus × FakeHw
  | .erasePage address => h.flashErasePage address
  | .write address data => h.flashWrite address data

end FakeHw

/-- The call of the driver. -/
def FlashCall.drive : FlashCall → FlashM FlashStatus
  | .erasePage address => flashErasePage address
  | .write address data => flashWrite address data

/-- On this flash the driver, where nothing disturbs it, reports what the double reports and
leaves what the double leaves. -/
def StandsIn (flash : Flash) (call : FlashCall) : Prop :=
  ∀ h : FakeHw, h.flash = flash → ∃ w, call.drive.run ⟨flash, [], []⟩ =
    (.done (h.answer call).1, w) ∧ w.state = (h.answer call).2.flash

end OtaBoot
