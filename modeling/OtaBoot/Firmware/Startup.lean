import Mathlib.Logic.Relation
import OtaBoot.Foundation.LittleEndian
import OtaBoot.Foundation.Memory

/-!
# Before `main`

`Reset_Handler` of `startup.s`, which is the same in the bootloader and in the
application, on the registers and the memory of the processor, and what the linker
scripts say of the addresses that it is given. The barriers after the access to the
coprocessor register are left out.
-/

namespace OtaBoot.Startup

open Storage LittleEndian

/-! ## The linker scripts -/

/-- `MEMORY`. -/
structure LinkerScript where
  flashOrigin : Nat
  flashLength : Nat
  ramOrigin : Nat
  ramLength : Nat
  deriving DecidableEq, Repr

/-- `bootloader/linker.ld`. -/
def bootloaderScript : LinkerScript := ⟨0x08000000, 32 * 1024, 0x20000000, 96 * 1024⟩

/-- `app/linker_slotA.ld`. -/
def slotAScript : LinkerScript := ⟨0x08008000, 480 * 1024, 0x20000000, 96 * 1024⟩

/-- `app/linker_slotB.ld`. -/
def slotBScript : LinkerScript := ⟨0x08080000, 480 * 1024, 0x20000000, 96 * 1024⟩

def scripts : List LinkerScript := [bootloaderScript, slotAScript, slotBScript]

namespace LinkerScript

variable (s : LinkerScript)

/-- `_boot_request`. -/
def bootRequest : Nat := s.ramOrigin + s.ramLength - 4

/-- `_estack`. -/
def estack : Nat := s.ramOrigin + s.ramLength - 8

end LinkerScript

/-- The symbols that `startup.s` takes from the linker. -/
structure Symbols where
  estack : UInt32
  sidata : UInt32
  sdata : UInt32
  edata : UInt32
  sbss : UInt32
  ebss : UInt32
  deriving DecidableEq, Repr

/-- What the linker makes of the sections `.data` and `.bss`, whatever is in them,
as long as they fit into their regions. -/
structure Symbols.Linked (l : Symbols) (s : LinkerScript) : Prop where
  estack : l.estack.toNat = s.estack
  aligned : l.sdata.toNat % 4 = 0 ∧ l.edata.toNat % 4 = 0 ∧ l.sbss.toNat % 4 = 0 ∧
    l.ebss.toNat % 4 = 0
  origin : s.ramOrigin ≤ l.sdata.toNat
  data : l.sdata.toNat ≤ l.edata.toNat
  order : l.edata.toNat ≤ l.sbss.toNat
  bss : l.sbss.toNat ≤ l.ebss.toNat
  fits : l.ebss.toNat ≤ s.ramOrigin + s.ramLength
  loaded : s.flashOrigin ≤ l.sidata.toNat
  loads : l.sidata.toNat + (l.edata.toNat - l.sdata.toNat) ≤ s.flashOrigin + s.flashLength

/-! ## The handler -/

/-- The labels of `Reset_Handler`, and the `main` that it calls. -/
inductive Label where
  | resetHandler
  | copyDataInit
  | loopCopyDataInit
  | fillZerobss
  | loopFillZerobss
  | main
  deriving DecidableEq, Repr

structure Cpu where
  label : Label
  r0 : UInt32
  r1 : UInt32
  r2 : UInt32
  r3 : UInt32
  sp : UInt32
  memory : Memory UInt8

/-- `ldr` from a register. -/
def ldr (m : Memory UInt8) (address : UInt32) : UInt32 :=
  word32 (m address.toNat) (m (address.toNat + 1)) (m (address.toNat + 2)) (m (address.toNat + 3))

/-- `str`. -/
def str (m : Memory UInt8) (address w : UInt32) : Memory UInt8 := m.store address.toNat (bytes32 w)

/-- `CPACR`. -/
def cpacr : UInt32 := 0xE000ED88

/-- The instructions from a label to the next branch or label. -/
def Cpu.step (l : Symbols) (c : Cpu) : Cpu :=
  match c.label with
  | .resetHandler =>
      let r1 := ldr c.memory cpacr ||| ((0xF : UInt32) <<< 20)
      { c with
        sp := l.estack
        r0 := cpacr
        r1 := 0
        memory := str c.memory cpacr r1
        label := .loopCopyDataInit }
  | .copyDataInit =>
      let r3 := ldr c.memory (l.sidata + c.r1)
      { c with
        r3
        memory := str c.memory (c.r0 + c.r1) r3
        r1 := c.r1 + 4
        label := .loopCopyDataInit }
  | .loopCopyDataInit =>
      let r2 := l.sdata + c.r1
      if r2 < l.edata then { c with r0 := l.sdata, r3 := l.edata, r2, label := .copyDataInit }
      else { c with r0 := l.sdata, r3 := l.edata, r2 := l.sbss, label := .loopFillZerobss }
  | .fillZerobss =>
      { c with
        r3 := 0
        memory := str c.memory c.r2 0
        r2 := c.r2 + 4
        label := .loopFillZerobss }
  | .loopFillZerobss =>
      if c.r2 < l.ebss then { c with r3 := l.ebss, label := .fillZerobss }
      else { c with r3 := l.ebss, label := .main }
  | .main => c

/-- From one moment to a later one. -/
def Reaches (l : Symbols) : Cpu → Cpu → Prop := Relation.ReflTransGen fun c c' => c.step l = c'

end OtaBoot.Startup
