import OtaBoot.Firmware.FlashRegisters

/-!
# What the flash driver may touch

Whatever the controller answers, the driver starts an erase or stores a word to
be programmed only in the pages that are not the bootloader's, and the bank and
page number that it writes designate the page that it was asked for.
-/

namespace OtaBoot.FlashRegisters

/-! ## Ranges -/

section Ranges

variable {address len : UInt32}

/-- The range check, in natural numbers: no sum wraps. -/
theorem addressInFlash_iff (hlen : 0 < len.toNat) :
    addressInFlash address len = true ↔
      0x08008000 ≤ address.toNat ∧ address.toNat + len.toNat ≤ 0x08100000 := by
  refine ⟨fun h => ?_, fun h => addressInFlash_of_bounds h.1 h.2⟩
  have hsum : (address + len).toNat = (address.toNat + len.toNat) % 2 ^ 32 :=
    UInt32.toNat_add _ _
  have haddress := address.toNat_lt
  have hlength := len.toNat_lt
  have hbase : flashBaseAddr.toNat = 0x08000000 := rfl
  have hend : flashEndAddr.toNat = 0x08100000 := rfl
  have hboot : bootloaderAddr.toNat = 0x08000000 := rfl
  have hbootEnd : (bootloaderAddr + bootloaderSize).toNat = 0x08008000 := rfl
  rw [addressInFlash] at h
  split at h
  · cases h
  next hlow =>
    split at h
    · cases h
    next hhigh =>
      split at h
      · cases h
      next hwrap =>
        split at h
        · cases h
        next hoverlap =>
          simp only [addressIsBootloader, Bool.and_eq_true, decide_eq_true_iff, gt_iff_lt,
            UInt32.lt_iff_toNat_lt] at hlow hhigh hwrap hoverlap
          omega

theorem erasablePage_of_checks (hrange : addressInFlash address flashPageSize = true)
    (haligned : address % flashPageSize = 0) : ErasablePage address := by
  obtain ⟨habove, hbelow⟩ := (addressInFlash_iff (by decide)).mp hrange
  refine ⟨?_, habove, hbelow⟩
  have hmod := congrArg UInt32.toNat haligned
  rwa [UInt32.toNat_mod] at hmod

theorem writableRange_of_checks (hlen : len ≠ 0) (haligned : ¬ (address % 8 ≠ 0 ∨ len % 8 ≠ 0))
    (hrange : addressInFlash address len = true) : WritableRange address len.toNat := by
  have hpos : 0 < len.toNat := Nat.pos_of_ne_zero fun hzero => hlen (UInt32.toNat_inj.mp hzero)
  obtain ⟨habove, hbelow⟩ := (addressInFlash_iff hpos).mp hrange
  rw [not_or, not_not, not_not] at haligned
  have haddress := congrArg UInt32.toNat haligned.1
  have hlength := congrArg UInt32.toNat haligned.2
  rw [UInt32.toNat_mod] at haddress hlength
  exact ⟨haddress, hlength, hpos, habove, hbelow⟩

end Ranges

/-! ## Triggers -/

/-- A write that starts an erase or hands over a word to be programmed. -/
def RegWrite.Triggers : RegWrite → Prop
  | .cr value => value &&& crStrt ≠ 0
  | .store _ _ => True
  | .keyr _ | .sr _ => False

/-- `BKER`. -/
def bker (cr : UInt32) : Bool := cr &&& crBker ≠ 0

/-- `PNB`. -/
def pnb (cr : UInt32) : UInt32 := (cr &&& crPnbMask) >>> crPnbShift

/-- The erase that is started is that of the page at an address, and of no other. -/
structure ErasesPage (address cr : UInt32) : Prop where
  per : cr &&& crPer ≠ 0
  only : cr &&& (crMer1 ||| crMer2 ||| crPg) = 0
  number : (pnb cr).toNat < 256
  page : pageAddr (bker cr) (pnb cr).toNat = address.toNat

/-- What the driver writes to `FLASH_CR` before it adds `STRT`. -/
def eraseCr (bank2 : Bool) (number : UInt32) : UInt32 :=
  let cr := crPer ||| (number <<< crPnbShift)
  if bank2 then cr ||| crBker else cr

/-- The bits that the driver puts together are read back. -/
theorem fields_of_number (bank2 : Bool) {number : UInt32} (hnumber : number.toNat < 256) :
    eraseCr bank2 number &&& crStrt = 0 ∧
      (eraseCr bank2 number ||| crStrt) &&& crPer ≠ 0 ∧
      (eraseCr bank2 number ||| crStrt) &&& (crMer1 ||| crMer2 ||| crPg) = 0 ∧
      bker (eraseCr bank2 number ||| crStrt) = bank2 ∧
      pnb (eraseCr bank2 number ||| crStrt) = number := by
  have hall : ∀ n : Fin 256, ∀ bank2 : Bool,
      eraseCr bank2 (UInt32.ofNat n) &&& crStrt = 0 ∧
      (eraseCr bank2 (UInt32.ofNat n) ||| crStrt) &&& crPer ≠ 0 ∧
      (eraseCr bank2 (UInt32.ofNat n) ||| crStrt) &&& (crMer1 ||| crMer2 ||| crPg) = 0 ∧
      bker (eraseCr bank2 (UInt32.ofNat n) ||| crStrt) = bank2 ∧
      pnb (eraseCr bank2 (UInt32.ofNat n) ||| crStrt) = UInt32.ofNat n := by
    decide +kernel
  have hone := hall ⟨number.toNat, hnumber⟩ bank2
  rwa [UInt32.ofNat_toNat] at hone

/-- `BKER` and `PNB` are computed from the address alone. -/
theorem erasesPage_eraseCr {address : UInt32} (hpage : ErasablePage address) :
    let page := (address - flashBaseAddr) / flashPageSize
    let cr := eraseCr (decide (pagesPerBank ≤ page)) (page % pagesPerBank)
    cr &&& crStrt = 0 ∧ ErasesPage address (cr ||| crStrt) := by
  intro page cr
  have hnumber : (page % pagesPerBank).toNat < 256 := by
    rw [UInt32.toNat_mod]
    exact Nat.mod_lt _ (by decide)
  obtain ⟨hbefore, hper, honly, hbker, hpnb⟩ :=
    fields_of_number (decide (pagesPerBank ≤ page)) hnumber
  have hfits : (pnb (cr ||| crStrt)).toNat < 256 := by
    rw [hpnb]
    exact hnumber
  have hpageAddr : pageAddr (bker (cr ||| crStrt)) (pnb (cr ||| crStrt)).toNat =
      address.toNat := by
    rw [hbker, hpnb]
    exact pageAddr_of_erasable hpage
  exact ⟨hbefore, hper, honly, hfits, hpageAddr⟩

/-! ## Utilities -/

section Utilities

/-- The program triggers nothing. -/
def Harmless {α : Type} (x : Driver α) : Prop := Bus.Writes (fun write => ¬ write.Triggers) x

/-- A program that starts nothing starts nothing but what it may. -/
theorem Harmless.only {α : Type} {x : Driver α} {good : RegWrite → Prop} (hx : Harmless x) :
    Bus.Writes (fun write => write.Triggers → good write) x :=
  hx.mono fun _ hnot htriggers => absurd htriggers hnot

theorem and_strt_of_read (value : UInt32) : (value &&& ~~~crStrt) &&& crStrt = 0 := by
  rw [UInt32.and_assoc, UInt32.not_and_self, UInt32.and_zero]

theorem readSr_harmless : Harmless readSr := .read

theorem readByte_harmless (address : UInt32) : Harmless (readByte address) := .map .read

theorem flashWaitBusy_harmless : Harmless flashWaitBusy := .readWhile _

theorem flashClearErrors_harmless : Harmless flashClearErrors := .write id

theorem clearCr_harmless (bits : UInt32) : Harmless (clearCr bits) := by
  refine .map_bind .read fun value => .write (not_not.mpr ?_)
  rw [UInt32.and_assoc, UInt32.and_comm (~~~bits), ← UInt32.and_assoc, and_strt_of_read,
    UInt32.zero_and]

theorem setCr_harmless {bits : UInt32} (hbits : bits &&& crStrt = 0) : Harmless (setCr bits) := by
  refine .map_bind .read fun value => .write (not_not.mpr ?_)
  have hsplit : (value &&& ~~~crStrt ||| bits) &&& crStrt =
      (value &&& ~~~crStrt &&& crStrt) ||| (bits &&& crStrt) :=
    UInt32.toBitVec_inj.mp BitVec.and_or_distrib_right
  rw [hsplit, and_strt_of_read, hbits]
  rfl

theorem flashUnlock_harmless : Harmless flashUnlock := by
  refine .bind (.map .read) fun cr => .ite (fun _ => .pure _) fun _ => ?_
  exact .bind (.write id) fun _ => .bind (.write id) fun _ => .bind (.map .read) fun _ => .pure _

theorem flashCheckErrors_harmless : Harmless flashCheckErrors := by
  refine .bind .read fun sr => .ite (fun _ => ?_) fun _ => .ite (fun _ => ?_) fun _ => .pure _
  · exact .bind flashClearErrors_harmless fun _ => .pure _
  · exact .bind (.write id) fun _ => .pure _

theorem isErasedFrom_harmless (address : UInt32) (count : Nat) (i : UInt32) :
    Harmless (isErasedFrom address count i) := by
  induction count generalizing i with
  | zero => exact .pure _
  | succ count ih =>
      exact .bind (readByte_harmless _) fun byte => .ite (fun _ => .pure _) fun _ => ih _

theorem verifyFrom_harmless (address : UInt32) (data : Nat → UInt8) (count : Nat) (i : UInt32) :
    Harmless (verifyFrom address data count i) := by
  induction count generalizing i with
  | zero => exact .pure _
  | succ count ih =>
      exact .bind (readByte_harmless _) fun byte => .ite (fun _ => .pure _) fun _ => ih _

end Utilities

/-! ## The driver -/

section Driver

/-- The erase of a page of the two slots or of the metadata, and nothing else. -/
theorem flashErasePage_writes (address : UInt32) :
    Bus.Writes (fun write => write.Triggers →
      ErasablePage address ∧ ∃ cr, write = .cr cr ∧ ErasesPage address cr)
      (flashErasePage address) := by
  unfold flashErasePage
  refine .ite (fun _ => .pure _) fun hrange => .ite (fun _ => .pure _) fun haligned => ?_
  have hpage := erasablePage_of_checks (not_not.mp hrange) (not_not.mp haligned)
  obtain ⟨hbefore, herases⟩ := erasesPage_eraseCr hpage
  refine .bind readSr_harmless.only fun sr => .ite (fun _ => .pure _) fun _ => ?_
  refine .bind flashUnlock_harmless.only fun st => .ite (fun _ => .pure _) fun _ => ?_
  refine .bind flashClearErrors_harmless.only fun _ => ?_
  refine .bind (.write fun htriggers => ?_) fun _ => .bind (.write fun _ => ?_) fun _ => ?_
  -- the fields are put in place before STRT
  · exact absurd hbefore htriggers
  · exact ⟨hpage, _, rfl, herases⟩
  refine .bind flashWaitBusy_harmless.only fun _ => ?_
  refine .bind flashCheckErrors_harmless.only fun st => ?_
  refine .bind (clearCr_harmless _).only fun _ => ?_
  refine .bind (setCr_harmless (by decide)).only fun _ => .ite (fun _ => .pure _) fun _ => ?_
  exact .bind (isErasedFrom_harmless _ _ _).only fun erased =>
    .ite (fun _ => .pure _) fun _ => .pure _

/-- A word inside a range that may be programmed. -/
def StoresWithin (address : UInt32) (len : Nat) (write : RegWrite) : Prop :=
  WritableRange address len ∧
    ∃ at' word, write = .store at' word ∧ address.toNat ≤ at'.toNat ∧
      at'.toNat + 4 ≤ address.toNat + len

/-- The loop stays inside the range: nothing wraps on the way. -/
theorem programFrom_writes {address : UInt32} (data : Nat → UInt8) {len : Nat}
    (hrange : WritableRange address len) (count : Nat) (i : UInt32)
    (hi : i.toNat + 8 * count = len) :
    Bus.Writes (fun write => write.Triggers → StoresWithin address len write)
      (programFrom address data count i) := by
  induction count generalizing i with
  | zero => exact .pure _
  | succ count ih =>
      have hbelow := hrange.below
      have hlow : (address + i).toNat = address.toNat + i.toNat := by
        rw [UInt32.toNat_add, Nat.mod_eq_of_lt (by omega)]
      have hhigh : (address + i + 4).toNat = address.toNat + i.toNat + 4 := by
        rw [UInt32.toNat_add, hlow, Nat.mod_eq_of_lt (by simp; omega)]
        rfl
      have hnext : (i + 8).toNat = i.toNat + 8 := by
        rw [UInt32.toNat_add, Nat.mod_eq_of_lt (by simp; omega)]
        rfl
      unfold programFrom
      refine .bind (.write fun _ => ⟨hrange, _, _, rfl, ?_, ?_⟩) fun _ => ?_
      · omega
      · omega
      refine .bind (.write fun _ => ⟨hrange, _, _, rfl, ?_, ?_⟩) fun _ => ?_
      · omega
      · omega
      refine .bind flashWaitBusy_harmless.only fun _ => ?_
      refine .bind flashCheckErrors_harmless.only fun st => .ite (fun _ => ?_) fun _ => ?_
      · refine .bind (clearCr_harmless _).only fun _ => ?_
        exact .bind (setCr_harmless (by decide)).only fun _ => .pure _
      · exact ih (i + 8) (by omega)

/-- Words of a range of the two slots or of the metadata, and nothing else. -/
theorem flashWrite_writes (address : UInt32) (data? : Option (Nat → UInt8)) (len : UInt32) :
    Bus.Writes (fun write => write.Triggers → StoresWithin address len.toNat write)
      (flashWrite address data? len) := by
  cases data? with
  | none => exact .pure _
  | some data =>
      unfold flashWrite
      refine .ite (fun _ => .pure _) fun hlen => .ite (fun _ => .pure _) fun haligned =>
        .ite (fun _ => .pure _) fun hin => ?_
      have hrange := writableRange_of_checks hlen haligned (not_not.mp hin)
      have hwhole : (0 : UInt32).toNat + 8 * (len.toNat / 8) = len.toNat := by
        rw [UInt32.toNat_zero, Nat.zero_add]
        exact Nat.mul_div_cancel' (Nat.dvd_of_mod_eq_zero hrange.len_aligned)
      refine .bind readSr_harmless.only fun sr => .ite (fun _ => .pure _) fun _ => ?_
      refine .bind flashUnlock_harmless.only fun st => .ite (fun _ => .pure _) fun _ => ?_
      refine .bind flashClearErrors_harmless.only fun _ => ?_
      refine .bind (setCr_harmless (by decide)).only fun _ => ?_
      refine .bind (programFrom_writes data hrange _ 0 hwhole) fun st =>
        .ite (fun _ => .pure _) fun _ => ?_
      refine .bind (clearCr_harmless _).only fun _ => ?_
      exact .bind (setCr_harmless (by decide)).only fun _ =>
        (verifyFrom_harmless _ _ _ _).only

end Driver

/-! ## Requests that are turned down -/

section Refusals

variable {address : UInt32}

/-- An erase that is turned down does not touch a register. -/
theorem flashErasePage_refused (hpage : ¬ ErasablePage address) (answers : List UInt32) :
    ((flashErasePage address).run answers).1 = [] := by
  rw [flashErasePage]
  split
  · rfl
  next hrange =>
    split
    · rfl
    next haligned =>
      exact absurd (erasablePage_of_checks (not_not.mp hrange) (not_not.mp haligned)) hpage

/-- Nor does a write. -/
theorem flashWrite_refused {len : UInt32} {data? : Option (Nat → UInt8)}
    (hrange : data? = none ∨ ¬ WritableRange address len.toNat) (answers : List UInt32) :
    ((flashWrite address data? len).run answers).1 = [] := by
  cases data? with
  | none => rfl
  | some data =>
      have hrange : ¬ WritableRange address len.toNat := hrange.resolve_left (Option.some_ne_none _)
      simp only [flashWrite]
      split
      · rfl
      next hlen =>
        split
        · rfl
        next haligned =>
          split
          · rfl
          next hin =>
            exact absurd (writableRange_of_checks hlen haligned (not_not.mp hin)) hrange

end Refusals

/-! ## The interlock -/

/-- For every address and length, whatever the registers read: programming is
started inside the range only, the erase is that of the page at the address, and
a request for anything else writes no register. -/
theorem driver_interlock :
    (∀ (address len : UInt32) (data? : Option (Nat → UInt8)) (answers : List UInt32),
      ∀ write ∈ ((flashWrite address data? len).run answers).1,
        write.Triggers → StoresWithin address len.toNat write) ∧
    (∀ (address : UInt32) (answers : List UInt32),
      ∀ write ∈ ((flashErasePage address).run answers).1,
        write.Triggers → ErasablePage address ∧ ∃ cr, write = .cr cr ∧ ErasesPage address cr) ∧
    (∀ (address len : UInt32) (data? : Option (Nat → UInt8)) (answers : List UInt32),
      data? = none ∨ ¬ WritableRange address len.toNat →
        ((flashWrite address data? len).run answers).1 = []) ∧
    ∀ (address : UInt32) (answers : List UInt32), ¬ ErasablePage address →
      ((flashErasePage address).run answers).1 = [] := by
  refine ⟨fun address len data? => ?_, fun address => ?_, fun _ _ _ answers hrange => ?_,
    fun _ answers hpage => ?_⟩
  · exact flashWrite_writes address data? len
  · exact flashErasePage_writes address
  · exact flashWrite_refused hrange answers
  · exact flashErasePage_refused hpage answers

/-- The first page of the second bank, with an idle controller that is unlocked. -/
theorem driver_interlock_bank2 :
    ErasablePage 0x08080000 ∧ ErasesPage 0x08080000 0x10802 ∧
      StoresWithin 0x08080000 8 (.store 0x08080004 0xFFFFFFFF) ∧
      ((flashErasePage 0x08007800).run [0, 0]).1 = [] ∧
      ((flashWrite 0xFFFFFFF8 (some fun _ => 0xFF) 0x08108010).run [0, 0]).1 = [] := by
  have hstarted := driver_interlock.2.1 0x08080000 [0, 0] (.cr 0x10802) (by decide)
    (show (0x10802 : UInt32) &&& crStrt ≠ 0 by decide)
  have hstored := driver_interlock.1 0x08080000 8 (some fun _ => 0xFF) [0, 0, 0]
    (.store 0x08080004 0xFFFFFFFF) (by decide) trivial
  obtain ⟨hpage, cr, hcr, herases⟩ := hstarted
  obtain rfl := RegWrite.cr.inj hcr
  have hbootloader := driver_interlock.2.2.2 0x08007800 [0, 0] fun h => absurd h.above (by decide)
  have hwraps := driver_interlock.2.2.1 0xFFFFFFF8 0x08108010 (some fun _ => 0xFF) [0, 0]
    (.inr fun h => absurd h.below (by decide))
  exact ⟨hpage, herases, hstored, hbootloader, hwraps⟩

end OtaBoot.FlashRegisters
