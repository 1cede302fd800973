import OtaBoot.Foundation.Fate
import OtaBoot.Histories

/-!
# A metadata write is atomic

A write is the erase of a page and six double-words. However many of these seven
operations take effect before power is lost or an error stops it, a following read
finds the record of before or, once all of them have, the new one.
-/

namespace OtaBoot

open Storage

/-! ## What a write does, operation by operation -/

section Writes

variable {before : Flash}

theorem flashErasePage_fares {path : Nat → Flash} {address : UInt32} (h : ErasablePage address)
    (hpath : path 1 = (path 0).erased address) :
    (flashErasePage address).Fares 1 path (· = .ok) (· ≠ .ok) := by
  obtain ⟨hrange, haligned⟩ := h.checks
  have hop := erasePageOp_of_erasable h (path 0)
  rw [← hpath] at hop
  unfold flashErasePage
  refine .note ?_
  simp only [hrange, haligned, not_true_eq_false, if_false, ne_eq]
  refine .bind 0 (.perform hop) (fun erased herased => ?_) (fun erased herased => ?_)
  · subst herased
    simp only [not_true_eq_false, if_false]
    refine .read hpath ?_
    rw [flashIsErased_erased]
    exact .pure rfl
  · exact ⟨.errProg, if_pos (by simp [herased]), by decide⟩

/-- So many double-words are in flash. -/
def storedWords (before : Flash) (addr : Nat) (data : List UInt8) (count : Nat) : Flash :=
  before.store addr (data.take (8 * count))

@[simp] theorem storedWords_zero (before : Flash) (addr : Nat) (data : List UInt8) :
    storedWords before addr data 0 = before := Memory.store_nil _ _

theorem storedWords_all (before : Flash) (addr : Nat) {data : List UInt8}
    (hlen : data.length % 8 = 0) :
    storedWords before addr data (data.length / 8) = before.store addr data := by
  rw [storedWords, List.take_of_length_le (by omega)]

/-- The first double-word, and then the rest. -/
theorem storedWords_cons (before : Flash) (addr : Nat) {front : List UInt8} (rest : List UInt8)
    (hfront : front.length = 8) (count : Nat) :
    storedWords before addr (front ++ rest) (1 + count) =
      storedWords (before.store addr front) (addr + 8) rest count := by
  rw [Nat.add_comm]
  exact (store_take_succ before addr rest hfront count).symm

theorem programLoop_fares (addr : Nat) (data : List UInt8) (hlen : data.length % 8 = 0)
    (hblank : before.Blank addr data.length) :
    (programLoop addr data).Fares (data.length / 8) (storedWords before addr data) (· = .ok)
      (· ≠ .ok) := by
  induction addr, data using programLoop.induct generalizing before with
  | case1 addr b₀ b₁ b₂ b₃ b₄ b₅ b₆ b₇ rest ih =>
      have hop : programOp addr (LittleEndian.word32 b₀ b₁ b₂ b₃)
          (LittleEndian.word32 b₄ b₅ b₆ b₇) before = _ :=
        programOp_blank (hblank.mono (Nat.le_refl addr) (by simp))
      have hrest : Flash.Blank (before.store addr [b₀, b₁, b₂, b₃, b₄, b₅, b₆, b₇])
          (addr + 8) rest.length := hblank.behind rfl
      set front := [b₀, b₁, b₂, b₃, b₄, b₅, b₆, b₇] with hfront
      have hsplit : b₀ :: b₁ :: b₂ :: b₃ :: b₄ :: b₅ :: b₆ :: b₇ :: rest = front ++ rest := rfl
      have hstep := storedWords_cons before addr rest (rfl : front.length = 8)
      simp only [List.length_cons] at hlen
      have hcount : (front ++ rest).length / 8 = 1 + rest.length / 8 := by
        rw [List.length_append, show front.length = 8 from rfl]
        omega
      have hfirst : storedWords before addr (front ++ rest) 1 = before.store addr front := by
        rw [show 1 = 1 + 0 from rfl, hstep, storedWords_zero]
      rw [programLoop, hsplit, hcount]
      -- the first double-word, then the induction hypothesis from the flash it leaves
      refine .bind _ (.perform ?_) (fun programmed hdone => ?_) (fun programmed hdone => ?_)
      · rw [storedWords_zero, hfirst]
        exact hop
      · subst hdone
        simp only [hstep]
        exact ih (by omega) hrest
      · exact ⟨.errProg, if_pos (by simp [hdone]), by decide⟩
  | case2 data addr hshort =>
      obtain rfl := eq_nil_of_no_doubleWord hlen hshort
      rw [programLoop]
      · exact .pure rfl
      · exact hshort

theorem flashWrite_fares {address : UInt32} {data : List UInt8}
    (hrange : WritableRange address data.length)
    (hblank : before.Blank address.toNat data.length) :
    (flashWrite address data).Fares (data.length / 8) (storedWords before address.toNat data)
      (· = .ok) (· ≠ .ok) := by
  obtain ⟨hne, haligned, hlenMod, hflash⟩ := hrange.checks
  unfold flashWrite
  refine .note ?_
  simp only [hne, if_false, haligned, hlenMod, ne_eq, not_true_eq_false, or_self, hflash]
  refine .bind 0 (programLoop_fares _ data hrange.len_aligned hblank)
    (fun st hst => ?_) fun st hst => ⟨st, if_pos hst, hst⟩
  subst hst
  simp only [not_true_eq_false, if_false]
  refine .read (storedWords_all _ _ hrange.len_aligned) ?_
  rw [Memory.read_store_self]
  simp only [not_true_eq_false, if_false]
  exact .pure rfl

/-- The flash after so many of the seven operations of a write. -/
def writePath (flash : Flash) (src : Metadata) : Nat → Flash
  | 0 => flash
  | count + 1 => tornImage flash src count

@[simp] theorem writePath_zero (flash : Flash) (src : Metadata) : writePath flash src 0 = flash :=
  rfl

@[simp] theorem writePath_seven (flash : Flash) (src : Metadata) :
    writePath flash src 7 = completeImage flash src := rfl

/-- The erase of a page and six double-words. After all of them a read back decides
what is reported. -/
theorem metadataWrite_fares (flash : Flash) (src : Metadata) :
    (metadataWrite src).Fares 7 (writePath flash src) (fun st => st = .ok ↔ src.Sound)
      (· ≠ .ok) := by
  have hpage := metaPage_writable (selectTarget flash).1
  have hlen : (src.stamped (selectTarget flash).2).toBytes.length = 48 :=
    Metadata.length_toBytes _
  have herased : writePath flash src 1 =
      (writePath flash src 0).erased (metaPage (selectTarget flash).1) :=
    Memory.store_nil _ _
  have hblank : (flash.erased (metaPage (selectTarget flash).1)).Blank
      (metaPage (selectTarget flash).1).toNat
      (src.stamped (selectTarget flash).2).toBytes.length :=
    Flash.blank_erased flash (Nat.le_refl _) (by simp)
  have hwrite := flashWrite_fares (hlen ▸ hpage) hblank
  rw [hlen] at hwrite
  have hpath : storedWords (flash.erased (metaPage (selectTarget flash).1))
      (metaPage (selectTarget flash).1).toNat (src.stamped (selectTarget flash).2).toBytes =
        fun count => writePath flash src (1 + count) := by
    funext count
    rw [Nat.add_comm]
    rfl
  rw [hpath] at hwrite
  unfold metadataWrite
  refine .read (s := flash) rfl (.bind 6 (flashErasePage_fares (metaPage_erasable _) herased)
    (fun st hst => ?_) fun st hst => ⟨.errErase, if_pos hst, by decide⟩)
  subst hst
  simp only [ne_eq, not_true_eq_false, if_false]
  refine .bind 0 hwrite (fun st hst => ?_) fun st hst => ⟨.errWrite, if_pos hst, by decide⟩
  subst hst
  simp only [not_true_eq_false, if_false]
  refine .read (s := completeImage flash src) rfl ?_
  rw [loadPage_completeImage]
  by_cases hsound : src.Sound
  · rw [if_pos (writtenRecord_valid_iff.mpr hsound)]
    have hcounter : (writtenRecord flash src).counter = (selectTarget flash).2 := rfl
    simp only [hcounter, not_true_eq_false, if_false]
    exact .pure (iff_of_true rfl hsound)
  · rw [if_neg (by rwa [writtenRecord_valid_iff])]
    exact .pure (iff_of_false (by decide) hsound)

end Writes

/-! ## What is read afterwards -/

/-- A record that takes the place of an old one, with the content asked for. -/
structure Supersedes (old : Option Metadata) (src new : Metadata) : Prop where
  activeSlot : new.activeSlot = src.activeSlot
  bootFailCount : new.bootFailCount = src.bootFailCount
  size : ∀ s, (new.slot s).size = (src.slot s).size
  crc32 : ∀ s, (new.slot s).crc32 = (src.slot s).crc32
  version : ∀ s, (new.slot s).version = (src.slot s).version
  state : ∀ s, (new.slot s).state = (src.slot s).state
  slotReserved : ∀ s, (new.slot s).reserved₀ = 0 ∧ (new.slot s).reserved₁ = 0 ∧
    (new.slot s).reserved₂ = 0
  reserved : new.reserved₀ = 0 ∧ new.reserved₁ = 0
  counter : new.counter.toNat = (old.map fun m => m.counter.toNat + 1).getD 1

theorem writtenRecord_supersedes {flash : Flash} (hcounter : CounterOk flash) (src : Metadata) :
    Supersedes (metadataRead flash) src (writtenRecord flash src) where
  activeSlot := rfl
  bootFailCount := rfl
  size s := by simp [writtenRecord]
  crc32 s := by simp [writtenRecord]
  version s := by simp [writtenRecord]
  state s := by simp [writtenRecord]
  slotReserved s := by cases s <;> exact ⟨rfl, rfl, rfl⟩
  reserved := ⟨rfl, rfl⟩
  counter := by
    rw [writtenRecord, stamped_counter, selectTarget_counter]
    cases hread : metadataRead flash with
    | none => rfl
    | some m => exact toNat_counter_succ (hcounter m hread)

/-- Before the seventh operation a read finds what it found before. -/
theorem metadataRead_writePath {flash : Flash} {src : Metadata} {count : Nat} (h : count < 7) :
    metadataRead (writePath flash src count) = metadataRead flash := by
  cases count with
  | zero => rfl
  | succ count => exact metadataRead_tornImage (Nat.lt_of_succ_lt_succ h)

/-- Of the seven operations of a write any number can take effect before power is
lost, and any number before an error stops it. -/
theorem effects_any {count : Nat} (hcount : count ≤ 7) :
    (∃ faults, fate 7 faults = .cut ∧ effects 7 faults = count) ∧
      ∃ faults, (fate 7 faults = .failed ∨ fate 7 faults = .unreported) ∧
        effects 7 faults = count := by
  cases count with
  | zero => exact ⟨⟨[.cutBefore], rfl, rfl⟩, [.lost], .inl rfl, rfl⟩
  | succ count =>
      obtain ⟨more, hmore⟩ : ∃ more, count + (more + 1) = 7 := ⟨6 - count, by omega⟩
      refine ⟨⟨List.replicate count .none ++ [.cutAfter], ?_, ?_⟩,
        List.replicate count .none ++ [.late], ?_, ?_⟩
      · rw [← hmore, fate_replicate]
        rfl
      · rw [← hmore, effects_replicate]
        rfl
      · rw [← hmore, fate_replicate]
        cases more with
        | zero => exact .inr rfl
        | succ more => exact .inl rfl
      · rw [← hmore, effects_replicate]
        rfl

/-- A write leaves the flash as far on as its operations have taken effect. Until
the seventh has, a read finds the record of before; with it, the new record, unless its
fields cannot be acted on. Success is reported exactly when every operation has
run and the fields can be acted on. Power cuts and errors stop it after any of the
operations. -/
theorem metadataWrite_atomic (flash : Flash) (src : Metadata) (hcounter : CounterOk flash) :
    (∀ faults out w, (metadataWrite src).run ⟨flash, faults, []⟩ = (out, w) →
      w.state = writePath flash src (effects 7 faults) ∧
      (effects 7 faults < 7 → metadataRead w.state = metadataRead flash) ∧
      (effects 7 faults = 7 → src.Sound →
        ∃ new, metadataRead w.state = some new ∧ Supersedes (metadataRead flash) src new) ∧
      (¬ src.Sound → metadataRead w.state = metadataRead flash) ∧
      (out = .done .ok ↔ src.Sound ∧ fate 7 faults = .done) ∧
      (out = .cut ↔ fate 7 faults = .cut)) ∧
    ∀ count ≤ 7,
      (∃ faults, fate 7 faults = .cut ∧ effects 7 faults = count) ∧
      ∃ faults, (fate 7 faults = .failed ∨ fate 7 faults = .unreported) ∧
        effects 7 faults = count := by
  refine ⟨fun faults out w hrun => ?_, fun count => effects_any⟩
  obtain ⟨hstate, hout⟩ := (metadataWrite_fares flash src).outcome faults []
  rw [writePath_zero, hrun] at hstate hout
  have hseven := effects_le 7 faults
  have hall (h : effects 7 faults = 7) : w.state = completeImage flash src := by
    rw [hstate, h, writePath_seven]
  refine ⟨hstate, fun hlt => ?_, fun hend hsound => ?_, fun hunsound => ?_, ?_⟩
  · rw [hstate]
    exact metadataRead_writePath hlt
  · rw [hall hend]
    exact ⟨_, metadataRead_completeImage hcounter hsound, writtenRecord_supersedes hcounter src⟩
  · by_cases hend : effects 7 faults = 7
    · rw [hall hend]
      exact metadataRead_completeImage_unsound hunsound
    · rw [hstate]
      exact metadataRead_writePath (Nat.lt_of_le_of_ne hseven hend)
  · cases out with
    | cut =>
        have hfate : fate 7 faults = .cut := hout
        rw [hfate]
        exact ⟨iff_of_false nofun fun h => Fate.noConfusion h.2, iff_of_true rfl rfl⟩
    | done st =>
        obtain ⟨hpower, hvalue⟩ := hout
        refine ⟨?_, iff_of_false nofun hpower⟩
        rw [Outcome.done.injEq]
        by_cases hdone : fate 7 faults = .done
        · rw [if_pos hdone] at hvalue
          rw [hvalue]
          exact (and_iff_left hdone).symm
        · rw [if_neg hdone] at hvalue
          exact iff_of_false hvalue fun h => hdone h.2

/-- Slot A is chosen, where B was, and counts its second attempt. -/
def secondAttempt : Metadata := { bothConfirmed with activeSlot := 0, bootFailCount := 2 }

/-- A second record, on a board that has one: it is there or the first one is. -/
theorem metadataWrite_atomic_stocked :
    ∃ old, metadataRead (stocked vectorsOnly vectorsOnly bothConfirmed) = some old ∧
      old.counter.toNat = 1 ∧ old.active = .b ∧
      (∀ faults out w, (metadataWrite secondAttempt).run
          ⟨stocked vectorsOnly vectorsOnly bothConfirmed, faults, []⟩ = (out, w) →
        effects 7 faults < 7 → metadataRead w.state = some old) ∧
      ∃ w new, (metadataWrite secondAttempt).run
          ⟨stocked vectorsOnly vectorsOnly bothConfirmed, [], []⟩ = (.done .ok, w) ∧
        metadataRead w.state = some new ∧ new.counter.toNat = 2 ∧ new.active = .a ∧
        new.bootFailCount = 2 := by
  have hsound : secondAttempt.Sound :=
    ⟨by decide, bothConfirmed_sound.state, bothConfirmed_sound.size⟩
  obtain ⟨old, hread, hm, hcount⟩ := stocked_read (by decide : vectorsOnly.length ≤ _)
    (by decide : vectorsOnly.length ≤ _) bothConfirmed_sound
  set flash := stocked vectorsOnly vectorsOnly bothConfirmed with hflash
  have hone : old.counter.toNat = 1 := by
    rw [counterAt, hread] at hcount
    exact hcount
  have hcounter : CounterOk flash := by
    intro m hm
    rw [hread, Option.some.injEq] at hm
    rw [← hm, hone]
    decide
  obtain ⟨hruns, -⟩ := metadataWrite_atomic flash secondAttempt hcounter
  rw [hread] at hruns
  cases hrun : (metadataWrite secondAttempt).run ⟨flash, [], []⟩ with
  | mk out w =>
      obtain ⟨-, -, hnew, -, hok, -⟩ := hruns [] out w hrun
      obtain ⟨new, hafter, hsupersedes⟩ := hnew rfl hsound
      refine ⟨old, hread, hone, congrArg Ledger.active hm,
        fun faults out w hrun => (hruns faults out w hrun).2.1, w, new, ?_, hafter, ?_, ?_, ?_⟩
      · rw [hok.mpr ⟨hsound, rfl⟩]
      · rw [hsupersedes.counter]
        exact congrArg (· + 1) hone
      · rw [Metadata.active, hsupersedes.activeSlot]
        rfl
      · exact hsupersedes.bootFailCount

end OtaBoot
