import OtaBoot.Foundation.Memory
import OtaBoot.Foundation.Faulty
import OtaBoot.Foundation.LittleEndian

/-!
# The flash and its driver

The memory layout of `shared/metadata.h` and the driver of `drivers/flash.c`.
The controller offers two atomic operations: erasing one page and programming
one double-word on erased cells. Everything else the driver does is checking
arguments before them and reading back after them.

The busy flag and the unlock sequence can only make an operation fail before it
is issued; both are covered by `Fault.lost`.
-/

namespace OtaBoot

open Storage

/-! ## Layout -/

def flashBaseAddr : UInt32 := 0x08000000
def flashTotalSize : UInt32 := 1024 * 1024
def flashPageSize : UInt32 := 2048

def bootloaderAddr : UInt32 := 0x08000000
def bootloaderSize : UInt32 := 32 * 1024

def slotAAddr : UInt32 := 0x08008000
def slotBAddr : UInt32 := 0x08080000
def slotSize : UInt32 := 480 * 1024

def metaPageAAddr : UInt32 := 0x080FF000
def metaPageBAddr : UInt32 := 0x080FF800

/-- `FLASH_END_ADDR`. -/
def flashEndAddr : UInt32 := flashBaseAddr + flashTotalSize

/-- `PAGES_PER_BANK`: 256 pages in each of the two banks. -/
def pagesPerBank : UInt32 := 256

@[simp] theorem toNat_flashPageSize : flashPageSize.toNat = 2048 := rfl
@[simp] theorem toNat_slotSize : slotSize.toNat = 491520 := rfl

/-- Flash is memory-mapped: a byte at every address. -/
abbrev Flash := Memory UInt8

/-- A programmed byte reads `0xFF` before it is written. -/
def erasedByte : UInt8 := 0xFF

/-! ## Controller -/

/-- The first address of a page, from the bank select bit and the page number
within the bank. -/
def pageAddr (bker : Bool) (pnb : Nat) : Nat :=
  0x08000000 + ((if bker then 256 else 0) + pnb) * 2048

/-- `PER` with `BKER` and `PNB`: the whole page reads `0xFF`. -/
def erasePageOp (bker : Bool) (pnb : Nat) (flash : Flash) : Option Flash :=
  some (flash.fill (pageAddr bker pnb) 2048 erasedByte)

/-- `PG`: a double-word is programmed when its eight cells are erased. -/
def programOp (address : Nat) (low high : UInt32) (flash : Flash) : Option Flash :=
  if flash.read address 8 = List.replicate 8 erasedByte then
    some (flash.store address (LittleEndian.bytes32 low ++ LittleEndian.bytes32 high))
  else none

/-! ## Driver -/

/-- `flash_status_t`. -/
inductive FlashStatus where
  | ok
  | errAlign
  | errRange
  | errLocked
  | errBusy
  | errProg
  | errVerify
  deriving DecidableEq, Repr

/-- The calls that change flash. -/
inductive FlashCall where
  | erasePage (address : UInt32)
  | write (address : UInt32) (data : List UInt8)
  deriving DecidableEq, Repr

/-- Programs that use the flash. -/
abbrev FlashM := Faulty Flash FlashCall

/-- Any overlap with the bootloader's own pages. -/
def addressIsBootloader (address len : UInt32) : Bool :=
  let blEnd := bootloaderAddr + bootloaderSize
  address < blEnd && address + len > bootloaderAddr

def addressInFlash (address len : UInt32) : Bool :=
  if address < flashBaseAddr then false
  else if address + len > flashEndAddr then false
  else if address + len < address then false
  else if addressIsBootloader address len then false
  else true

def flashIsErased (flash : Flash) (address len : UInt32) : Bool :=
  (flash.read address.toNat len.toNat).all (· == erasedByte)

/-- Erase the page at an address, and verify that it reads erased. -/
def flashErasePage (address : UInt32) : FlashM FlashStatus := do
  Faulty.note (.erasePage address)
  if ¬ addressInFlash address flashPageSize then pure .errRange
  else if address % flashPageSize ≠ 0 then pure .errAlign
  else
    let offset := address - flashBaseAddr
    let page := offset / flashPageSize
    -- the controller numbers pages within a bank
    let bank2 : Bool := pagesPerBank ≤ page
    let pnb := page % pagesPerBank
    let erased ← Faulty.perform (erasePageOp bank2 pnb.toNat)
    if ¬ erased then pure .errProg
    else
      let flash ← Faulty.read
      if ¬ flashIsErased flash address flashPageSize then pure .errVerify
      else pure .ok

/-- The programming loop of `flash_write`, one double-word at a time. The range
check that precedes it keeps `address + i` from wrapping. -/
def programLoop (address : Nat) : List UInt8 → FlashM FlashStatus
  | b₀ :: b₁ :: b₂ :: b₃ :: b₄ :: b₅ :: b₆ :: b₇ :: rest => do
      let low := LittleEndian.word32 b₀ b₁ b₂ b₃
      let high := LittleEndian.word32 b₄ b₅ b₆ b₇
      let programmed ← Faulty.perform (programOp address low high)
      if ¬ programmed then pure .errProg
      else programLoop (address + 8) rest
  -- lengths are multiples of eight, so nothing is left over
  | _ => pure .ok

/-- Program bytes at an address, and read them back. -/
def flashWrite (address : UInt32) (data : List UInt8) : FlashM FlashStatus := do
  Faulty.note (.write address data)
  let len := UInt32.ofNat data.length
  if len = 0 then pure .errAlign
  else if address % 8 ≠ 0 ∨ len % 8 ≠ 0 then pure .errAlign
  else if ¬ addressInFlash address len then pure .errRange
  else
    let st ← programLoop address.toNat data
    if st ≠ .ok then pure st
    else
      let flash ← Faulty.read
      if flash.read address.toNat data.length ≠ data then pure .errVerify
      else pure .ok

/-! ## What the driver does -/

/-- The page at an address reads erased, the rest is as before. -/
def Flash.erased (flash : Flash) (address : UInt32) : Flash :=
  flash.fill address.toNat 2048 erasedByte

/-- The range may be programmed. -/
def Flash.Blank (flash : Flash) (addr count : Nat) : Prop :=
  flash.read addr count = List.replicate count erasedByte

/-- Some of the double-words of `data`, from the first on, are in flash. -/
def PartlyWritten (before : Flash) (addr : Nat) (data : List UInt8) (after : Flash) : Prop :=
  ∃ count, 8 * count ≤ data.length ∧ after = before.store addr (data.take (8 * count))

theorem PartlyWritten.none (flash : Flash) (addr : Nat) (data : List UInt8) :
    PartlyWritten flash addr data flash :=
  ⟨0, by simp, by simp⟩

theorem PartlyWritten.full (flash : Flash) (addr : Nat) {data : List UInt8}
    (hlen : data.length % 8 = 0) : PartlyWritten flash addr data (flash.store addr data) :=
  ⟨data.length / 8, by omega, by rw [List.take_of_length_le (by omega)]⟩

/-- A page that may be erased: aligned, and not one of the bootloader's. -/
structure ErasablePage (address : UInt32) : Prop where
  aligned : address.toNat % 2048 = 0
  above : 0x08008000 ≤ address.toNat
  below : address.toNat + 2048 ≤ 0x08100000

/-- A range that may be programmed. -/
structure WritableRange (address : UInt32) (len : Nat) : Prop where
  aligned : address.toNat % 8 = 0
  len_aligned : len % 8 = 0
  nonempty : 0 < len
  above : 0x08008000 ≤ address.toNat
  below : address.toNat + len ≤ 0x08100000

theorem addressInFlash_of_bounds {address len : UInt32} (habove : 0x08008000 ≤ address.toNat)
    (hbelow : address.toNat + len.toNat ≤ 0x08100000) : addressInFlash address len = true := by
  have hsum : (address + len).toNat = address.toNat + len.toNat := by
    rw [UInt32.toNat_add, Nat.mod_eq_of_lt (by omega)]
  have hbase : ¬ address < flashBaseAddr := by
    rw [UInt32.lt_iff_toNat_lt, show flashBaseAddr.toNat = 0x08000000 from rfl]
    omega
  have hend : ¬ address + len > flashEndAddr := by
    rw [gt_iff_lt, UInt32.lt_iff_toNat_lt, hsum, show flashEndAddr.toNat = 0x08100000 from rfl]
    omega
  have hwrap : ¬ address + len < address := by
    rw [UInt32.lt_iff_toNat_lt, hsum]
    omega
  have hboot : ¬ address < bootloaderAddr + bootloaderSize := by
    rw [UInt32.lt_iff_toNat_lt, show (bootloaderAddr + bootloaderSize).toNat = 0x08008000 from rfl]
    omega
  simp [addressInFlash, addressIsBootloader, hbase, hend, hwrap, hboot]

/-- The bank and page number computed by the driver designate the page. -/
theorem pageAddr_of_erasable {address : UInt32} (h : ErasablePage address) :
    pageAddr (decide (pagesPerBank ≤ (address - flashBaseAddr) / flashPageSize))
      ((address - flashBaseAddr) / flashPageSize % pagesPerBank).toNat = address.toNat := by
  obtain ⟨haligned, habove, hbelow⟩ := h
  have hpage : ((address - flashBaseAddr) / flashPageSize).toNat =
      (address.toNat - 0x08000000) / 2048 := by
    rw [UInt32.toNat_div, UInt32.toNat_sub_of_le _ _ (by
      rw [UInt32.le_iff_toNat_le, show flashBaseAddr.toNat = 0x08000000 from rfl]; omega)]
    rfl
  have hpnb : ((address - flashBaseAddr) / flashPageSize % pagesPerBank).toNat =
      (address.toNat - 0x08000000) / 2048 % 256 := by
    rw [UInt32.toNat_mod, hpage]
    rfl
  have hbank : pagesPerBank ≤ (address - flashBaseAddr) / flashPageSize ↔
      256 ≤ (address.toNat - 0x08000000) / 2048 := by
    rw [UInt32.le_iff_toNat_le, hpage, show pagesPerBank.toNat = 256 from rfl]
  rw [pageAddr, hpnb]
  simp only [decide_eq_true_eq, hbank]
  split <;> omega

theorem flashIsErased_erased (flash : Flash) (address : UInt32) :
    flashIsErased (flash.erased address) address flashPageSize = true := by
  rw [flashIsErased, List.all_eq_true]
  intro byte hbyte
  rw [Flash.erased, Memory.read_fill _ _ (Nat.le_refl _) (by simp)] at hbyte
  rw [List.eq_of_mem_replicate hbyte]
  rfl

/-- On an erasable page the driver's operation is the erase of that page. -/
theorem erasePageOp_of_erasable {address : UInt32} (h : ErasablePage address) (flash : Flash) :
    erasePageOp (decide (pagesPerBank ≤ (address - flashBaseAddr) / flashPageSize))
      ((address - flashBaseAddr) / flashPageSize % pagesPerBank).toNat flash =
      some (flash.erased address) := by
  rw [erasePageOp, pageAddr_of_erasable h]
  rfl

theorem ErasablePage.checks {address : UInt32} (h : ErasablePage address) :
    addressInFlash address flashPageSize = true ∧ address % flashPageSize = 0 := by
  refine ⟨addressInFlash_of_bounds h.above (by simpa using h.below), ?_⟩
  apply UInt32.toNat_inj.mp
  simpa [UInt32.toNat_mod] using h.aligned

variable {c : Climate Flash FlashCall} {before : Flash}

/-- Erasing does its page or nothing, and does its page when it reports so. -/
theorem flashErasePage_triple {address : UInt32} (hpage : ErasablePage address)
    (hcall : c.calls before (.erasePage address)) :
    Triple c (· = before) (flashErasePage address)
      (fun st after => (after = before ∨ after = before.erased address) ∧
        (st = .ok → after = before.erased address) ∧ (c.ReportsNoError → st = .ok))
      (fun after => after = before ∨ after = before.erased address) := by
  obtain ⟨hrange, haligned⟩ := hpage.checks
  have hop := erasePageOp_of_erasable hpage before
  have heffect (s : Flash) (hs : erasePageOp _ _ before = some s) : s = before.erased address :=
    (Option.some.inj (hop.symm.trans hs)).symm
  unfold flashErasePage
  refine Triple.bind (Triple.note (Q := fun _ s => s = before) ?_ (fun s hs => hs)) fun _ => ?_
  · rintro s rfl
    exact hcall
  simp only [hrange, haligned, not_true_eq_false, if_false, ne_eq]
  refine Triple.bind (Triple.perform_effect heffect) fun erased => ?_
  cases erased with
  | false =>
      refine Triple.ite (fun _ => Triple.pure ?_) (fun h => absurd Bool.false_ne_true h)
      rintro s ⟨hs, -, hquiet⟩
      refine ⟨hs, nofun, fun h => absurd (hquiet h ?_) Bool.false_ne_true⟩
      rw [hop]
      exact Option.some_ne_none _
  | true =>
      refine Triple.ite (fun h => absurd rfl h) fun _ => ?_
      refine Triple.bind (Triple.read (Q := fun flash s =>
        flash = before.erased address ∧ s = before.erased address) ?_) fun flash => ?_
      · rintro s ⟨-, hs, -⟩
        exact ⟨hs rfl, hs rfl⟩
      -- the read-back finds nothing to complain about
      · refine Triple.ite (fun hverify => Triple.pure ?_) (fun _ => Triple.pure ?_)
        · rintro s ⟨rfl, rfl⟩
          exact absurd (flashIsErased_erased before address) hverify
        · rintro s ⟨rfl, rfl⟩
          exact ⟨.inr rfl, fun _ => rfl, fun _ => rfl⟩

/-! ### Calls -/

theorem calls_flashErasePage (address : UInt32) (w : World Flash FlashCall) :
    ((flashErasePage address).run w).2.calls = w.calls ++ [(w.state, .erasePage address)] := by
  refine Faulty.calls_bind (fun _ => ?_) w
  refine .ite (.pure _) (.ite (.pure _) ?_)
  exact .bind (.perform _) fun _ => .ite (.pure _) (.bind .read fun _ => .ite (.pure _) (.pure _))

theorem programLoop_silent (address : Nat) (data : List UInt8) :
    (programLoop address data).Silent := by
  fun_induction programLoop address data with
  | case1 address b₀ b₁ b₂ b₃ b₄ b₅ b₆ b₇ rest low high ih =>
      exact .bind (.perform _) fun _ => .ite (.pure _) ih
  | case2 => exact .pure _

theorem calls_flashWrite (address : UInt32) (data : List UInt8) (w : World Flash FlashCall) :
    ((flashWrite address data).run w).2.calls = w.calls ++ [(w.state, .write address data)] := by
  refine Faulty.calls_bind (fun _ => ?_) w
  refine .ite (.pure _) (.ite (.pure _) (.ite (.pure _) ?_))
  refine .bind (programLoop_silent _ _) fun _ => .ite (.pure _) ?_
  exact .bind .read fun _ => .ite (.pure _) (.pure _)

theorem Flash.Blank.mono {flash : Flash} {addr count addr' count' : Nat}
    (h : flash.Blank addr count) (hlo : addr ≤ addr') (hhi : addr' + count' ≤ addr + count) :
    flash.Blank addr' count' := by
  have hfill : Memory.AgreeOn addr count flash (flash.fill addr count erasedByte) := by
    rw [Memory.agreeOn_iff_read_eq, h, Memory.read_fill _ _ (Nat.le_refl _) (Nat.le_refl _)]
  rw [Flash.Blank, (hfill.mono hlo hhi).read_eq, Memory.read_fill _ _ hlo hhi]

theorem Flash.Blank.append {flash : Flash} {addr front back : Nat}
    (hfront : flash.Blank addr front) (hback : flash.Blank (addr + front) back) :
    flash.Blank addr (front + back) := by
  unfold Flash.Blank at hfront hback ⊢
  rw [Memory.read_add, hfront, hback, List.replicate_append_replicate]

/-- What is stored in front of cells makes them no less blank. -/
theorem Flash.blank_store_iff {flash : Flash} {addr behind count : Nat} {cells : List UInt8}
    (h : addr + cells.length ≤ behind) :
    Flash.Blank (flash.store addr cells) behind count ↔ flash.Blank behind count := by
  have hagree : Memory.AgreeOn behind count (flash.store addr cells) flash :=
    Memory.store_agreeOn _ _ _ (.inr h)
  unfold Flash.Blank
  rw [hagree.read_eq]

/-- Anything inside an erased page may be programmed. -/
theorem Flash.blank_erased (flash : Flash) {address : UInt32} {addr count : Nat}
    (hlo : address.toNat ≤ addr) (hhi : addr + count ≤ address.toNat + 2048) :
    (flash.erased address).Blank addr count :=
  Memory.read_fill _ _ hlo hhi

theorem programOp_blank {flash : Flash} {addr : Nat} {b₀ b₁ b₂ b₃ b₄ b₅ b₆ b₇ : UInt8}
    (h : flash.Blank addr 8) :
    programOp addr (LittleEndian.word32 b₀ b₁ b₂ b₃) (LittleEndian.word32 b₄ b₅ b₆ b₇) flash =
      some (flash.store addr [b₀, b₁, b₂, b₃, b₄, b₅, b₆, b₇]) := by
  rw [Flash.Blank] at h
  rw [programOp, if_pos h]
  simp

/-- A double-word that is stored is the one that was asked for. -/
theorem programOp_eq_some {flash flash' : Flash} {addr : Nat} {b₀ b₁ b₂ b₃ b₄ b₅ b₆ b₇ : UInt8}
    (h : programOp addr (LittleEndian.word32 b₀ b₁ b₂ b₃) (LittleEndian.word32 b₄ b₅ b₆ b₇) flash =
      some flash') :
    flash' = flash.store addr [b₀, b₁, b₂, b₃, b₄, b₅, b₆, b₇] := by
  by_cases hblank : flash.Blank addr 8
  · rw [programOp_blank hblank, Option.some.injEq] at h
    exact h.symm
  · rw [Flash.Blank] at hblank
    rw [programOp, if_neg hblank] at h
    cases h

/-- The cells behind a double-word are as blank as before. -/
theorem Flash.Blank.behind {flash : Flash} {addr : Nat} {front rest : List UInt8}
    (hfront : front.length = 8) (h : flash.Blank addr (front ++ rest).length) :
    Flash.Blank (flash.store addr front) (addr + 8) rest.length := by
  have hagree : Memory.AgreeOn (addr + 8) rest.length (flash.store addr front) flash :=
    flash.store_agreeOn addr front (.inr (by omega))
  rw [List.length_append, hfront] at h
  rw [Flash.Blank, hagree.read_eq]
  exact h.mono (Nat.le_add_right _ _) (by omega)

/-- Double-words leave no bytes over. -/
theorem eq_nil_of_no_doubleWord {data : List UInt8} (hlen : data.length % 8 = 0)
    (hshort : ∀ b₀ b₁ b₂ b₃ b₄ b₅ b₆ b₇ rest,
      data = b₀ :: b₁ :: b₂ :: b₃ :: b₄ :: b₅ :: b₆ :: b₇ :: rest → False) : data = [] := by
  rcases data with
    _ | ⟨a, _ | ⟨b, _ | ⟨d, _ | ⟨e, _ | ⟨f, _ | ⟨g, _ | ⟨h, _ | ⟨i, rest⟩⟩⟩⟩⟩⟩⟩⟩
  case nil => rfl
  case cons.cons.cons.cons.cons.cons.cons.cons =>
    exact (hshort a b d e f g h i rest rfl).elim
  all_goals simp at hlen

/-- Double-words behind a first one. -/
theorem store_take_succ (flash : Flash) (addr : Nat) {front : List UInt8} (rest : List UInt8)
    (hfront : front.length = 8) (count : Nat) :
    (flash.store addr front).store (addr + 8) (rest.take (8 * count)) =
      flash.store addr ((front ++ rest).take (8 * (count + 1))) := by
  rw [show 8 * (count + 1) = front.length + 8 * count by omega, List.take_length_add_append,
    Memory.store_append, hfront]

/-- One more double-word in front of partly written data. -/
theorem PartlyWritten.cons {before after : Flash} {addr : Nat} {front rest : List UInt8}
    (hfront : front.length = 8)
    (h : PartlyWritten (before.store addr front) (addr + 8) rest after) :
    PartlyWritten before addr (front ++ rest) after := by
  obtain ⟨count, hcount, rfl⟩ := h
  exact ⟨count + 1, by simp only [List.length_append]; omega,
    store_take_succ before addr rest hfront count⟩

/-- The loop stores a prefix of the data, all of it when it reports so. -/
theorem programLoop_triple (addr : Nat) (data : List UInt8) (before : Flash)
    (hlen : data.length % 8 = 0) :
    Triple c (· = before) (programLoop addr data)
      (fun st after => PartlyWritten before addr data after ∧
        (st = .ok → after = before.store addr data) ∧
        (c.ReportsNoError → before.Blank addr data.length → st = .ok))
      (PartlyWritten before addr data) := by
  induction addr, data using programLoop.induct generalizing before with
  | case1 addr b₀ b₁ b₂ b₃ b₄ b₅ b₆ b₇ rest ih =>
      set front := [b₀, b₁, b₂, b₃, b₄, b₅, b₆, b₇] with hfront
      have hsplit : b₀ :: b₁ :: b₂ :: b₃ :: b₄ :: b₅ :: b₆ :: b₇ :: rest = front ++ rest := rfl
      have hstopped (s : Flash) (hs : s = before ∨ s = before.store addr front) :
          PartlyWritten before addr (front ++ rest) s := by
        rcases hs with rfl | rfl
        · exact .none _ _ _
        · exact .cons rfl (.none _ _ _)
      simp only [List.length_cons] at hlen
      rw [programLoop, hsplit]
      -- the first double-word, then the induction hypothesis from the flash it leaves
      refine Triple.bind ((Triple.perform_effect fun s hs => programOp_eq_some hs).conseq
        (fun _ h => h) (fun _ _ h => h) hstopped) fun programmed => ?_
      cases programmed with
      | false =>
          refine Triple.ite (fun _ => Triple.pure ?_) (fun h => absurd Bool.false_ne_true h)
          rintro s ⟨hs, -, hquiet⟩
          refine ⟨hstopped s hs, nofun, fun h hblank => absurd (hquiet h ?_) Bool.false_ne_true⟩
          rw [programOp_blank (hblank.mono (Nat.le_refl _) (by simp [hfront]))]
          exact Option.some_ne_none _
      | true =>
          refine Triple.ite (fun h => absurd rfl h) fun _ => ?_
          refine (ih (before.store addr front) (by omega)).conseq
            (fun s hs => hs.2.1 rfl) ?_ (fun s hs => hs.cons rfl)
          rintro st s ⟨hpart, hok, hquiet⟩
          refine ⟨hpart.cons rfl, fun hst => ?_, fun h hblank => hquiet h ?_⟩
          · rw [Memory.store_append]
            exact hok hst
          · exact hblank.behind rfl
  | case2 data addr hshort =>
      obtain rfl := eq_nil_of_no_doubleWord hlen hshort
      rw [programLoop]
      · refine Triple.pure ?_
        rintro s rfl
        exact ⟨.none _ _ _, fun _ => (Memory.store_nil _ _).symm, fun _ _ => rfl⟩
      · exact hshort

theorem WritableRange.checks {address : UInt32} {len : Nat} (h : WritableRange address len) :
    UInt32.ofNat len ≠ 0 ∧ address % 8 = 0 ∧ UInt32.ofNat len % 8 = 0 ∧
      addressInFlash address (UInt32.ofNat len) = true := by
  obtain ⟨haligned, hlenAligned, hpos, habove, hbelow⟩ := h
  have hlen : (UInt32.ofNat len).toNat = len :=
    UInt32.toNat_ofNat_of_lt' (by simp only [UInt32.size]; omega)
  have hmod {x : UInt32} (h : x.toNat % 8 = 0) : x % 8 = 0 := by
    apply UInt32.toNat_inj.mp
    simpa [UInt32.toNat_mod] using h
  refine ⟨fun h => ?_, hmod haligned, hmod (by rwa [hlen]),
    addressInFlash_of_bounds habove (by omega)⟩
  have hzero := congrArg UInt32.toNat h
  rw [hlen, UInt32.toNat_zero] at hzero
  omega

/-- Writing stores a prefix of the data, all of it when it reports so, and
reports so on blank cells unless an error is reported to it. -/
theorem flashWrite_triple {address : UInt32} {data : List UInt8}
    (hrange : WritableRange address data.length)
    (hcall : c.calls before (.write address data)) :
    Triple c (· = before) (flashWrite address data)
      (fun st after => PartlyWritten before address.toNat data after ∧
        (st = .ok → after = before.store address.toNat data) ∧
        (c.ReportsNoError → before.Blank address.toNat data.length → st = .ok))
      (PartlyWritten before address.toNat data) := by
  obtain ⟨hne, haligned, hlenMod, hflash⟩ := hrange.checks
  have hlenAligned := hrange.len_aligned
  unfold flashWrite
  refine Triple.bind (Triple.note (Q := fun _ s => s = before) ?_ (fun s hs => hs)) fun _ => ?_
  · rintro s rfl
    exact hcall
  simp only [hne, if_false, haligned, hlenMod, ne_eq, not_true_eq_false, or_self, hflash]
  refine Triple.bind (programLoop_triple address.toNat data before hlenAligned) fun st => ?_
  refine Triple.ite (fun hst => Triple.pure ?_) fun hst => ?_
  · rintro s ⟨hpart, -, hquiet⟩
    exact ⟨hpart, fun h => absurd h hst, fun h hblank => absurd (hquiet h hblank) hst⟩
  · refine Triple.bind (Triple.read (Q := fun flash s =>
      flash = s ∧ s = before.store address.toNat data) ?_) fun flash => ?_
    · rintro s ⟨-, hok, -⟩
      exact ⟨rfl, hok (Decidable.not_not.mp hst)⟩
    · refine Triple.ite (fun hverify => Triple.pure ?_) (fun _ => Triple.pure ?_)
      · rintro s ⟨rfl, rfl⟩
        exact absurd (Memory.read_store_self _ _ _) hverify
      · rintro s ⟨rfl, rfl⟩
        exact ⟨.full _ _ hlenAligned, fun _ => rfl, fun _ _ => rfl⟩

end OtaBoot
