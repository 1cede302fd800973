import OtaBoot.Host.FakeHw
import OtaBoot.Loading
import OtaBoot.Properties.Interlock
import OtaBoot.Properties.Reach

/-!
# When the test double stands in for the driver

The double and the driver differ in two ways. The double takes calls for the pages of the
bootloader, and it leaves the flash alone where the driver stores the first double-words
before it comes to one that is not erased. The protocol manager makes no such call as long
as every block ends in the page in which it begins, so that what the host tests show of it
they show of the driver.
-/

namespace OtaBoot

open Storage

/-! ## What the driver does undisturbed -/

/-- The double-words up to the one of this number can be programmed, and that one cannot. -/
structure StopsAt (flash : Flash) (addr : Nat) (data : List UInt8) (count : Nat) : Prop where
  within : 8 * count < data.length
  blank : flash.Blank addr (8 * count)
  occupied : ¬ flash.Blank (addr + 8 * count) 8

section Calm

variable {flash : Flash} {addr : Nat} {data : List UInt8} {count count' : Nat}

theorem StopsAt.cons {front rest : List UInt8} (hfront : front.length = 8)
    (hblank : flash.Blank addr 8) (h : StopsAt (flash.store addr front) (addr + 8) rest count) :
    StopsAt flash addr (front ++ rest) (count + 1) := by
  have hwithin := h.within
  have hnext : addr + 8 * (count + 1) = addr + 8 + 8 * count := by omega
  refine ⟨?_, ?_, ?_⟩
  · rw [List.length_append]
    omega
  · rw [Nat.mul_succ, Nat.add_comm]
    exact hblank.append ((Flash.blank_store_iff (by omega)).mp h.blank)
  · rw [hnext]
    exact fun hrest => h.occupied ((Flash.blank_store_iff (by omega)).mpr hrest)

theorem StopsAt.not_blank (h : StopsAt flash addr data count) (hlen : data.length % 8 = 0) :
    ¬ flash.Blank addr data.length := by
  have hwithin := h.within
  exact fun hblank => h.occupied (hblank.mono (by omega) (by omega))

theorem StopsAt.unique (h : StopsAt flash addr data count) (h' : StopsAt flash addr data count') :
    count = count' := by
  rcases Nat.lt_trichotomy count count' with hlt | heq | hgt
  · exact absurd (h'.blank.mono (by omega) (by omega)) h.occupied
  · exact heq
  · exact absurd (h.blank.mono (by omega) (by omega)) h'.occupied

/-- The programming loop stores everything, or stops at the first double-word that is not
erased. -/
theorem run_programLoop (flash : Flash) (addr : Nat) (hlen : data.length % 8 = 0)
    (calls : List (Flash × FlashCall)) :
    (flash.Blank addr data.length ∧ (programLoop addr data).run ⟨flash, [], calls⟩ =
      (.done .ok, ⟨flash.store addr data, [], calls⟩)) ∨
    ∃ count, StopsAt flash addr data count ∧ (programLoop addr data).run ⟨flash, [], calls⟩ =
      (.done .errProg, ⟨flash.store addr (data.take (8 * count)), [], calls⟩) := by
  induction addr, data using programLoop.induct generalizing flash with
  | case1 addr b₀ b₁ b₂ b₃ b₄ b₅ b₆ b₇ rest ih =>
      set front := [b₀, b₁, b₂, b₃, b₄, b₅, b₆, b₇] with hfront
      have hsplit : b₀ :: b₁ :: b₂ :: b₃ :: b₄ :: b₅ :: b₆ :: b₇ :: rest = front ++ rest := rfl
      simp only [List.length_cons] at hlen
      rw [programLoop, hsplit]
      by_cases hblank : flash.Blank addr 8
      · have hop : programOp addr (LittleEndian.word32 b₀ b₁ b₂ b₃)
            (LittleEndian.word32 b₄ b₅ b₆ b₇) flash = some (flash.store addr front) :=
          programOp_blank hblank
        rw [Faulty.run_bind_done (Faulty.run_perform_calm hop calls), if_neg (by simp)]
        rcases ih (flash.store addr front) (by omega) with
          ⟨hrest, hrun⟩ | ⟨count, hstops, hrun⟩
        · refine .inl ⟨?_, ?_⟩
          · rw [List.length_append]
            exact hblank.append ((Flash.blank_store_iff (Nat.le_refl _)).mp hrest)
          · rw [hrun, Memory.store_append]
            rfl
        · refine .inr ⟨count + 1, hstops.cons rfl hblank, ?_⟩
          rw [hrun, store_take_succ _ _ _ rfl]
      · have hop : programOp addr (LittleEndian.word32 b₀ b₁ b₂ b₃)
            (LittleEndian.word32 b₄ b₅ b₆ b₇) flash = none := if_neg hblank
        rw [Faulty.run_bind_done (Faulty.run_perform_refused hop calls), if_pos (by simp)]
        refine .inr ⟨0, ⟨?_, rfl, hblank⟩, ?_⟩
        · simp [hfront]
        · rw [Nat.mul_zero, List.take_zero, Memory.store_nil]
          rfl
  | case2 data addr hshort =>
      obtain rfl := eq_nil_of_no_doubleWord hlen hshort
      rw [programLoop, Memory.store_nil]
      · exact .inl ⟨rfl, rfl⟩
      · exact hshort

end Calm

/-! ## Calls on which the two agree -/

namespace FlashCall

/-- A call for a range that begins in the bootloader's pages: an erase, or a write that is
nothing but out of bounds. -/
def HitsBootloader : FlashCall → Prop
  | .erasePage address => 0x08000000 ≤ address.toNat ∧ address.toNat < 0x08008000
  | .write address data =>
      data ≠ [] ∧ address.toNat % 8 = 0 ∧ data.length % 8 = 0 ∧
        0x08000000 ≤ address.toNat ∧ address.toNat < 0x08008000 ∧
        address.toNat + data.length ≤ 0x08100000

/-- A call in which the driver stops at a double-word after it has stored more than erased
bytes. -/
def StopsShort (flash : Flash) : FlashCall → Prop
  | .erasePage _ => False
  | .write address data =>
      WritableRange address data.length ∧ ∃ count, StopsAt flash address.toNat data count ∧
        data.take (8 * count) ≠ List.replicate (8 * count) erasedByte

end FlashCall

section Ranges

variable {address len : UInt32}

theorem inRange_iff (hlen : 0 < len.toNat) :
    FakeHw.inRange address len = true ↔
      0x08000000 ≤ address.toNat ∧ address.toNat + len.toNat ≤ 0x08100000 := by
  have hsum : (address + len).toNat = (address.toNat + len.toNat) % 2 ^ 32 :=
    UInt32.toNat_add _ _
  have haddress := address.toNat_lt
  have hlength := len.toNat_lt
  have hbase : flashBaseAddr.toNat = 0x08000000 := rfl
  have hend : (flashBaseAddr + flashTotalSize).toNat = 0x08100000 := rfl
  simp only [FakeHw.inRange, UInt32.lt_iff_toNat_lt, gt_iff_lt, hsum, hbase, hend]
  split
  · simp
    omega
  split
  · simp
    omega
  split
  · simp
    omega
  · simp
    omega

/-- Outside the bootloader's pages the two check the same range. -/
theorem inRange_eq (hlen : 0 < len.toNat)
    (houtside : ¬ (0x08000000 ≤ address.toNat ∧ address.toNat < 0x08008000)) :
    FakeHw.inRange address len = addressInFlash address len := by
  rw [Bool.eq_iff_iff, inRange_iff hlen, FlashRegisters.addressInFlash_iff hlen]
  omega

theorem addressInFlash_bootloader (hlen : 0 < len.toNat) (h : address.toNat < 0x08008000) :
    addressInFlash address len = false := by
  rw [Bool.eq_false_iff, ne_eq, FlashRegisters.addressInFlash_iff hlen]
  omega

end Ranges

section Calls

variable {flash : Flash} {address : UInt32} {data : List UInt8}

/-- A call that both turn down. -/
theorem stands_in_of_refused {call : FlashCall} (st : FlashStatus)
    (hdriver : call.drive.run ⟨flash, [], []⟩ = (.done st, ⟨flash, [], [(flash, call)]⟩))
    (hdouble : ∀ h : FakeHw, h.flash = flash → h.answer call = (st, h)) : StandsIn flash call := by
  intro h hflash
  rw [hdouble h hflash]
  exact ⟨_, hdriver, hflash.symm⟩

theorem stands_in_erasePage_iff :
    StandsIn flash (.erasePage address) ↔ ¬ (FlashCall.erasePage address).HitsBootloader := by
  have hpage : 0 < flashPageSize.toNat := by decide
  constructor
  · rintro h ⟨hlow, hhigh⟩
    obtain ⟨w, hrun, -⟩ := h ⟨flash, 0, 0⟩ rfl
    have hrange : FakeHw.inRange address flashPageSize = true := by
      rw [inRange_iff hpage, toNat_flashPageSize]
      omega
    -- the driver reports the range, the double anything else
    rw [FlashCall.drive, flashErasePage, Faulty.run_bind_done (Faulty.run_note _ _),
      addressInFlash_bootloader hpage hhigh, if_pos (by simp)] at hrun
    have hstatus := congrArg Prod.fst hrun
    simp only [Faulty.run_pure, Outcome.done.injEq, FakeHw.answer, FakeHw.flashErasePage, hrange,
      not_true_eq_false, if_false] at hstatus
    split at hstatus <;> cases hstatus
  · intro houtside
    have hsame := inRange_eq hpage houtside
    by_cases hrange : addressInFlash address flashPageSize = true
    · by_cases haligned : address % flashPageSize = 0
      · have herasable := FlashRegisters.erasablePage_of_checks hrange haligned
        rintro h rfl
        have hcalm : (Climate.calm : Climate Flash FlashCall).calls h.flash (.erasePage address) :=
          trivial
        obtain ⟨st, w, hrun, -, hok, hquiet⟩ :=
          (flashErasePage_triple herasable hcalm).run_calm
        obtain rfl := hquiet Climate.calm_reportsNoError
        refine ⟨w, hrun.trans ?_, (hok rfl).trans ?_⟩
        · simp [FakeHw.answer, FakeHw.flashErasePage, hsame, hrange, haligned]
        · simp [FakeHw.answer, FakeHw.flashErasePage, hsame, hrange, haligned, Flash.erased]
      · refine stands_in_of_refused .errAlign ?_ fun h hflash => ?_
        · rw [FlashCall.drive, flashErasePage, Faulty.run_bind_done (Faulty.run_note _ _),
            if_neg (not_not.mpr hrange), if_pos haligned]
          rfl
        · simp [FakeHw.answer, FakeHw.flashErasePage, hsame, hrange, haligned]
    · refine stands_in_of_refused .errRange ?_ fun h hflash => ?_
      · rw [FlashCall.drive, flashErasePage, Faulty.run_bind_done (Faulty.run_note _ _),
          if_pos hrange]
        rfl
      · simp [FakeHw.answer, FakeHw.flashErasePage, hsame, hrange]

/-- What the double makes of a range that may be programmed. -/
theorem fake_flashWrite (hrange : WritableRange address data.length) (h : FakeHw) :
    (h.flash.Blank address.toNat data.length → h.flashWrite address data = (.ok, { h with
      flash := h.flash.store address.toNat data
      writeCount := h.writeCount + 1 })) ∧
    (¬ h.flash.Blank address.toNat data.length → h.flashWrite address data = (.errProg, h)) := by
  obtain ⟨hne, haligned, hlenMod, hflash⟩ := hrange.checks
  have hbelow := hrange.below
  have hlen : (UInt32.ofNat data.length).toNat = data.length :=
    UInt32.toNat_ofNat_of_lt' (by simp only [UInt32.size]; omega)
  have hpos := hrange.nonempty
  have habove := hrange.above
  rw [← inRange_eq (by omega) (by omega)] at hflash
  have hany : (Memory.read h.flash address.toNat data.length).any (· != erasedByte) = true ↔
      ¬ h.flash.Blank address.toNat data.length := by
    rw [Flash.Blank, List.eq_replicate_iff]
    simp
  simp only [FakeHw.flashWrite, hne, haligned, hlenMod, hflash, Memory.read_store_self, ne_eq,
    not_true_eq_false, if_false, or_self]
  exact ⟨fun hblank => if_neg fun hoccupied => hany.mp hoccupied hblank,
    fun hoccupied => if_pos (hany.mpr hoccupied)⟩

/-- What the driver makes of it. -/
theorem run_flashWrite (flash : Flash) (hrange : WritableRange address data.length) :
    (flash.Blank address.toNat data.length ∧ (flashWrite address data).run ⟨flash, [], []⟩ =
      (.done .ok, ⟨flash.store address.toNat data, [], [(flash, .write address data)]⟩)) ∨
    ∃ count, StopsAt flash address.toNat data count ∧
      (flashWrite address data).run ⟨flash, [], []⟩ =
        (.done .errProg, ⟨flash.store address.toNat (data.take (8 * count)), [],
          [(flash, .write address data)]⟩) := by
  obtain ⟨hne, haligned, hlenMod, hflash⟩ := hrange.checks
  unfold flashWrite
  rw [Faulty.run_bind_done (Faulty.run_note _ _)]
  simp only [hne, if_false, haligned, hlenMod, ne_eq, not_true_eq_false, or_self, hflash,
    List.nil_append]
  have hloop := run_programLoop flash address.toNat hrange.len_aligned
    [(flash, .write address data)]
  rcases hloop with ⟨hblank, hrun⟩ | ⟨count, hstops, hrun⟩
  · refine .inl ⟨hblank, ?_⟩
    rw [Faulty.run_bind_done hrun, if_neg (by simp), Faulty.run_bind_done (Faulty.run_read _)]
    simp
  · refine .inr ⟨count, hstops, ?_⟩
    rw [Faulty.run_bind_done hrun, if_pos (by simp)]
    rfl

/-- On a range that may be programmed the two agree unless the driver stops short. -/
theorem stands_in_writable_iff (hrange : WritableRange address data.length) :
    StandsIn flash (.write address data) ↔ ¬ (FlashCall.write address data).StopsShort flash := by
  have haligned := hrange.len_aligned
  rcases run_flashWrite flash hrange with ⟨hblank, hrun⟩ | ⟨count, hstops, hrun⟩
  · refine iff_of_true ?_ ?_
    · rintro h rfl
      rw [FakeHw.answer, (fake_flashWrite hrange h).1 hblank]
      exact ⟨_, hrun, rfl⟩
    · rintro ⟨-, count, hstops, -⟩
      exact hstops.not_blank haligned hblank
  · have hoccupied := hstops.not_blank haligned
    have hlength : (data.take (8 * count)).length = 8 * count :=
      List.length_take_of_le (Nat.le_of_lt hstops.within)
    have hsame : Memory.store flash address.toNat (data.take (8 * count)) = flash ↔
        data.take (8 * count) = List.replicate (8 * count) erasedByte := by
      have hblank : Memory.read flash address.toNat (8 * count) = _ := hstops.blank
      rw [Memory.store_eq_self_iff, hlength, hblank]
      exact eq_comm
    constructor
    · rintro hstands ⟨-, count', hstops', hmore⟩
      obtain rfl := hstops.unique hstops'
      obtain ⟨w, hdriven, hleft⟩ := hstands ⟨flash, 0, 0⟩ rfl
      rw [FakeHw.answer, (fake_flashWrite hrange _).2 hoccupied] at hdriven hleft
      rw [FlashCall.drive, hrun] at hdriven
      cases hdriven
      exact hmore (hsame.mp hleft)
    · rintro hshort h rfl
      rw [FakeHw.answer, (fake_flashWrite hrange h).2 hoccupied]
      refine ⟨_, hrun, hsame.mpr (by_contra fun hmore => hshort ⟨hrange, count, hstops, hmore⟩)⟩

theorem mod_eight_iff {x : UInt32} : x % 8 = 0 ↔ x.toNat % 8 = 0 := by
  rw [← UInt32.toNat_inj, UInt32.toNat_mod]
  rfl

/-- Nothing to write, or no double-words. -/
theorem stands_in_of_misaligned (h : UInt32.ofNat data.length = 0 ∨
    (address % 8 ≠ 0 ∨ UInt32.ofNat data.length % 8 ≠ 0)) :
    StandsIn flash (.write address data) := by
  refine stands_in_of_refused .errAlign ?_ fun double _ => ?_
  · rw [FlashCall.drive, flashWrite, Faulty.run_bind_done (Faulty.run_note _ _)]
    by_cases hnone : UInt32.ofNat data.length = 0
    · rw [if_pos hnone]
      rfl
    · rw [if_neg hnone, if_pos (h.resolve_left hnone)]
      rfl
  · by_cases hnone : UInt32.ofNat data.length = 0
    · simp only [FakeHw.answer, FakeHw.flashWrite, hnone, if_true]
    · simp only [FakeHw.answer, FakeHw.flashWrite, hnone, h.resolve_left hnone, if_true, if_false]

/-- A range that the driver turns down. -/
theorem stands_in_refused_iff (hlen : data.length < 2 ^ 32)
    (hrange : ¬ WritableRange address data.length) :
    StandsIn flash (.write address data) ↔ ¬ (FlashCall.write address data).HitsBootloader := by
  have hlength : (UInt32.ofNat data.length).toNat = data.length := UInt32.toNat_ofNat_of_lt' hlen
  have hempty : UInt32.ofNat data.length = 0 ↔ data = [] := by
    rw [← UInt32.toNat_inj, hlength, UInt32.toNat_zero, List.length_eq_zero_iff]
  by_cases hnone : UInt32.ofNat data.length = 0
  · exact iff_of_true (stands_in_of_misaligned (.inl hnone)) fun h => h.1 (hempty.mp hnone)
  by_cases haligned : address % 8 ≠ 0 ∨ UInt32.ofNat data.length % 8 ≠ 0
  · refine iff_of_true (stands_in_of_misaligned (.inr haligned)) fun h => ?_
    rw [ne_eq, ne_eq, mod_eight_iff, mod_eight_iff, hlength] at haligned
    exact haligned.elim (absurd h.2.1) (absurd h.2.2.1)
  have hout : ¬ addressInFlash address (UInt32.ofNat data.length) = true := fun hin =>
    hrange (hlength ▸ FlashRegisters.writableRange_of_checks hnone haligned hin)
  have hdriver : (FlashCall.write address data).drive.run ⟨flash, [], []⟩ =
      (.done .errRange, ⟨flash, [], [(flash, .write address data)]⟩) := by
    rw [FlashCall.drive, flashWrite, Faulty.run_bind_done (Faulty.run_note _ _), if_neg hnone,
      if_neg haligned, if_pos hout]
    rfl
  have hpos : 0 < (UInt32.ofNat data.length).toNat :=
    Nat.pos_of_ne_zero fun hzero => hnone (UInt32.toNat_inj.mp hzero)
  have hin : FakeHw.inRange address (UInt32.ofNat data.length) = true ↔ _ := inRange_iff hpos
  rw [FlashRegisters.addressInFlash_iff hpos] at hout
  by_cases htakes : FakeHw.inRange address (UInt32.ofNat data.length) = true
  · refine iff_of_false (fun h => ?_) (not_not.mpr ?_)
    · obtain ⟨w, hrun, -⟩ := h ⟨flash, 0, 0⟩ rfl
      rw [hdriver] at hrun
      have hstatus := congrArg Prod.fst hrun
      simp only [FakeHw.answer, FakeHw.flashWrite, hnone, haligned, htakes, if_false,
        not_true_eq_false, Outcome.done.injEq] at hstatus
      split at hstatus
      · cases hstatus
      · split at hstatus <;> cases hstatus
    · rw [hin] at htakes
      rw [not_or, not_not, not_not, mod_eight_iff, mod_eight_iff, hlength] at haligned
      refine ⟨fun hnil => hnone (hempty.mpr hnil), haligned.1, haligned.2, htakes.1, ?_, ?_⟩ <;>
        omega
  · refine iff_of_true (stands_in_of_refused .errRange hdriver fun h _ => ?_) fun h => ?_
    · simp [FakeHw.answer, FakeHw.flashWrite, hnone, haligned, htakes]
    · exact htakes (hin.mpr ⟨h.2.2.2.1, hlength.symm ▸ h.2.2.2.2.2⟩)

end Calls

/-- The double does what the driver does, in status and flash, if and only if it is not given
a range that begins in the bootloader's pages, and no double-word that is not erased stops the
driver on its way. -/
theorem stands_in_iff {flash : Flash} {call : FlashCall} (hlen : call.len < 2 ^ 32) :
    StandsIn flash call ↔ ¬ call.HitsBootloader ∧ ¬ call.StopsShort flash := by
  cases call with
  | erasePage address =>
      rw [stands_in_erasePage_iff]
      exact ⟨fun h => ⟨h, id⟩, And.left⟩
  | write address data =>
      by_cases hrange : WritableRange address data.length
      · have hoff : ¬ (FlashCall.write address data).HitsBootloader := fun h =>
          absurd hrange.above (Nat.not_le.mpr h.2.2.2.2.1)
        rw [stands_in_writable_iff hrange]
        exact ⟨fun h => ⟨hoff, h⟩, And.right⟩
      · rw [stands_in_refused_iff hlen hrange]
        exact ⟨fun h => ⟨h, fun hshort => hrange hshort.1⟩, And.left⟩

/-- A page of the bootloader, which the double erases; two double-words of which the second
is not erased, of which the double stores neither; and that one alone. -/
theorem stands_in_iff_occupied :
    ¬ StandsIn Board.blank.flash (.erasePage 0x08000000) ∧
      ¬ StandsIn (Board.blank.flash.store 0x08008008 [0x00])
        (.write 0x08008000 (List.replicate 16 0x00)) ∧
      StandsIn (Board.blank.flash.store 0x08008008 [0x00])
        (.write 0x08008008 (List.replicate 8 0x00)) := by
  refine ⟨fun h => ?_, fun h => ?_, ?_⟩
  · exact ((stands_in_iff (by decide)).mp h).1 ⟨by decide, by decide⟩
  · refine ((stands_in_iff (by decide)).mp h).2 ⟨⟨by decide, by decide, by decide, by decide,
      by decide⟩, 1, ⟨by decide, ?_, ?_⟩, by decide⟩
    · unfold Flash.Blank
      decide
    · unfold Flash.Blank
      decide
  · refine (stands_in_iff (by decide)).mpr ⟨?_, ?_⟩
    · rintro ⟨-, -, -, -, hhigh, -⟩
      exact absurd hhigh (by decide)
    · rintro ⟨-, count, hstops, hmore⟩
      have hwithin := hstops.within
      obtain rfl : count = 0 := by
        simp at hwithin
        omega
      exact hmore rfl

/-! ## Calls of the protocol manager -/

/-- Any fault; only calls on which the double stands in for the driver. -/
def doubled : Climate Flash FlashCall := ⟨fun _ => True, StandsIn⟩

section Manager

variable {flash after : Flash} {t : Transfer} {a : Action}

theorem stands_in_of_erasable {address : UInt32} (h : ErasablePage address) :
    StandsIn flash (.erasePage address) :=
  stands_in_erasePage_iff.mpr fun hhits => absurd h.above (Nat.not_le.mpr hhits.2)

theorem stands_in_of_blank {address : UInt32} {data : List UInt8}
    (hrange : WritableRange address data.length) (hblank : flash.Blank address.toNat data.length) :
    StandsIn flash (.write address data) := by
  refine (stands_in_writable_iff hrange).mpr ?_
  rintro ⟨-, count, hstops, -⟩
  exact hstops.not_blank hrange.len_aligned hblank

/-- A metadata write erases its page first. -/
theorem writeAllowed_doubled (flash : Flash) (src : Metadata) :
    Action.WriteAllowed flash doubled src := by
  refine ⟨stands_in_of_erasable (metaPage_erasable _), stands_in_of_blank ?_ ?_⟩
  · rw [Metadata.length_toBytes]
    exact metaPage_writable _
  · refine Flash.blank_erased _ (Nat.le_refl _) ?_
    rw [Metadata.length_toBytes]
    omega

/-- A block that is stored ends in the page in which it begins. -/
def Action.Fits (t : Transfer) : Action → Prop
  | .store _ block => t.WithinPage block
  | _ => True

instance : Decidable (a.Fits t) :=
  match a with
  | .store _ _ => inferInstanceAs (Decidable (_ ≤ 2048))
  | .answer | .abort | .start .. | .finish _ => isTrue trivial

theorem Action.allowed_doubled (hb : t.Bounded) (hjustified : a.Justified flash t)
    (hrest : RestBlank flash t) (hfits : a.Fits t) : a.Allowed flash t doubled := by
  cases a with
  | answer | abort => trivial
  | start | finish => exact writeAllowed_doubled _ _
  | store seq block =>
      have hblock := hjustified.2
      refine ⟨fun hpage => ?_, ?_⟩
      · exact stands_in_of_erasable (Transfer.blockAddr_erasable hb hblock hpage)
      · exact stands_in_of_blank (Transfer.blockAddr_writable hb hblock)
          (hrest.ready hb hfits seq)

/-! ## What is left of a page -/

theorem restBlank_of_zero (h : t.bytesWritten = 0) : RestBlank flash t := by
  intro hrest
  rw [h] at hrest
  exact absurd rfl hrest

/-- The metadata is nowhere near. -/
theorem RestBlank.of_stopped {src : Metadata} (h : RestBlank flash t) (hb : t.Bounded)
    (hstopped : WriteStopped flash src after) : RestBlank after t := by
  intro hrest
  have haddr := t.targetSlot.addr_bounds
  have hsize := hb.size
  have hwritten := hb.written
  rw [Flash.Blank, (hstopped.agreeOn (by omega)).read_eq]
  exact h hrest

/-- Every action keeps the rest of the page erased. -/
theorem ActionEffect.restBlank {quiet : Prop} {p p' : Protocol}
    (h : ActionEffect quiet flash p a after (some p')) (hb : p.Bounded)
    (hjustified : a.Justified flash p.toTransfer) (hfits : a.Fits p.toTransfer)
    (hrest : RestBlank flash p.toTransfer) : RestBlank after p'.toTransfer := by
  cases h with
  | performed htransfer =>
      rw [htransfer]
      cases a with
      | answer => exact hrest
      | abort | start => exact restBlank_of_zero rfl
      | store seq block => exact hrest.store hb hjustified.2 hfits seq
      | finish seq => exact hrest.of_stopped hb (completeImage_stopped _ _)
  | failed hstopped hready htransfer =>
      rw [htransfer]
      cases a with
      | answer | abort => exact hstopped.elim
      | start => exact hrest.of_stopped hb hstopped
      | store | finish => exact restBlank_of_zero rfl

end Manager

namespace Board

/-- A block that the event has stored ends in the page in which it begins. -/
def Fits (b : Board) : Event → Prop
  | .byte byte _ =>
      match b.mode with
      | .update u => (u.proto.byteAction b.flash byte).Fits u.proto.toTransfer
      | _ => True
  | _ => True

instance (b : Board) (e : Event) : Decidable (b.Fits e) :=
  match e with
  | .byte byte _ =>
      match hmode : b.mode with
      | .update u =>
          decidable_of_iff ((u.proto.byteAction b.flash byte).Fits u.proto.toTransfer)
            (by simp only [Fits, hmode])
      | .reset | .app _ => isTrue (by simp only [Fits, hmode])
  | .boot .. | .poll _ | .pollEnd | .confirm _ | .reset => isTrue trivial

/-- The double stands in for the driver in every call that the protocol manager makes. -/
def Doubled (b : Board) (e : Event) : Prop :=
  ∀ u byte faults, b.mode = .update u → e = .byte byte faults →
    ∀ call ∈ ((u.proto.feed byte).run ⟨b.flash, faults, []⟩).2.calls, StandsIn call.1 call.2

variable {b : Board} {e : Event}

theorem Fits.action {byte : UInt8} {faults : List Fault} {u : Session}
    (h : b.Fits (.byte byte faults)) (hmode : b.mode = .update u) :
    (u.proto.byteAction b.flash byte).Fits u.proto.toTransfer := by
  simpa only [Fits, hmode] using h

theorem restBlank_step (hb : b.Bounded) (h : b.Holds RestBlank) (hfits : b.Fits e) :
    (b.step e).Holds RestBlank := by
  have heffect := step_effect_any hb e
  generalize b.step e = b' at heffect ⊢
  cases heffect with
  | ignored => exact h
  | reset | restarted | returned | confirm =>
      intro u hu
      first
        | cases hu
        | split at hu <;> cases hu
  | @boot _ _ _ _ boot? _ _ =>
      intro u hu
      rcases boot? with _ | _ | slot
      · cases hu
      · cases hu
        exact restBlank_of_zero rfl
      · cases hu
  | @poll u _ hmode =>
      intro u' hu'
      cases hu'
      exact h u hmode
  | @byte u _ _ _ _ _ _ proto? hmode _ heffect =>
      intro u' hu'
      cases proto? with
      | none => cases hu'
      | some proto =>
          cases hu'
          exact heffect.restBlank (hb u hmode) (byteAction_justified (hb u hmode) _)
            (hfits.action hmode) (h u hmode)
  | @listened u proto hmode htail =>
      intro u' hu'
      cases hu'
      change RestBlank b.flash proto.toTransfer
      rcases htail with hsame | ⟨-, haborted⟩
      · rw [hsame]
        exact h u hmode
      · rw [haborted]
        exact restBlank_of_zero rfl

theorem doubled_of_fits (hb : b.Bounded) (h : b.Holds RestBlank) (hfits : b.Fits e) :
    b.Doubled e := by
  rintro u byte faults hmode rfl
  have hjustified : (u.proto.byteAction b.flash byte).Justified b.flash u.proto.toTransfer :=
    byteAction_justified (hb u hmode) byte
  have hacts : Acts doubled b.flash { u.proto with rx := (u.proto.rx.feed byte).1 }
      (u.proto.byteAction b.flash byte) (u.proto.feed byte) := feed_acts (hb u hmode) byte
  have hallowed := Action.allowed_doubled (hb u hmode) hjustified (h u hmode)
    (hfits.action hmode)
  have hout := (hacts hallowed).run_from faults fun _ _ => trivial
  rcases hrun : (u.proto.feed byte).run ⟨b.flash, faults, []⟩ with ⟨_ | _, w⟩
  · rw [hrun] at hout
    exact hout.2
  · rw [hrun] at hout
    exact hout.2

end Board

/-- In every run of a board in which each block that is stored ends in the page in which it
begins, whatever comes in and whatever becomes of the flash operations, every call of the
protocol manager is one in which the double does what the driver does undisturbed. -/
theorem double_stands_in {flash : Flash} {events : List Event}
    (hfits : Transition.Guarded Board.step Board.Fits ⟨flash, .reset⟩ events) :
    Transition.Guarded Board.step Board.Doubled ⟨flash, .reset⟩ events := by
  refine Transition.Guarded.of_guarded (fun b => b.Bounded ∧ b.Holds RestBlank) ?_ ?_ ?_ hfits
  · exact fun b e h hfits => ⟨Board.bounded_step h.1 e, Board.restBlank_step h.1 h.2 hfits⟩
  · exact fun b e h hfits => Board.doubled_of_fits h.1 h.2 hfits
  · refine ⟨Board.bounded_reset flash, fun u hu => ?_⟩
    cases hu

/-- A board without metadata is sent eight bytes. -/
def eightBytesIn : List Event :=
  [.boot false 0 [], .poll 0] ++ frameEvents cmdStartUpdate 0 (startPayload 8 0 1 .b) ++
    frameEvents cmdData 1 (List.replicate 8 0)

theorem double_stands_in_eightBytes :
    Transition.Guarded Board.step Board.Fits Board.blank eightBytesIn ∧
      Transition.Guarded Board.step Board.Doubled Board.blank eightBytesIn := by
  have hfits : Transition.Guarded Board.step Board.Fits Board.blank eightBytesIn := by
    decide +kernel
  exact ⟨hfits, double_stands_in hfits⟩

end OtaBoot
