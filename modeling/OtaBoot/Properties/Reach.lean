import OtaBoot.Tracking
import OtaBoot.Histories

/-!
# What the protocol can touch

Whatever arrives on the link, the protocol manager erases and programs nothing
but the free slot and a metadata page that does not hold the record in force.
The free slot is the one that the record of that moment does not name, so the
transfer under way has to agree with the record at every block.
-/

namespace OtaBoot

open Storage
open Protocol (startRecord endRecord)

/-! ## Regions -/

/-- The page that holds the record in force. -/
def metaHolder (flash : Flash) : Option Side :=
  DualCopy.holder (fun m : Metadata => m.counter.toNat) (loadPage flash)

namespace FlashCall

def addr : FlashCall → Nat
  | erasePage address | write address _ => address.toNat

def len : FlashCall → Nat
  | erasePage _ => 2048
  | write _ data => data.length

end FlashCall

/-- The call lies inside the free slot, or inside a metadata page that does not
hold the record in force. -/
def InReach (flash : Flash) (call : FlashCall) : Prop :=
  ((freeSlot flash).addr.toNat ≤ call.addr ∧
      call.addr + call.len ≤ (freeSlot flash).addr.toNat + 491520) ∨
    ∃ side, metaHolder flash ≠ some side ∧ (metaPage side).toNat ≤ call.addr ∧
      call.addr + call.len ≤ (metaPage side).toNat + 2048

/-- The address belongs to the free slot, or to a metadata page that does not hold
the record in force. -/
def Spare (flash : Flash) (a : Nat) : Prop :=
  (freeSlot flash).Covers a ∨
    ∃ side, metaHolder flash ≠ some side ∧ (metaPage side).toNat ≤ a ∧
      a < (metaPage side).toNat + 2048

/-- Any fault; only calls that are in reach. -/
def confined : Climate Flash FlashCall := ⟨fun _ => True, InReach⟩

section Reach

variable {flash after : Flash} {src : Metadata}

theorem metaHolder_ne_target (flash : Flash) :
    metaHolder flash ≠ some (selectTarget flash).1 := by
  rw [selectTarget_page]
  exact DualCopy.holder_ne_target

/-- A page that holds nothing usable does not hold the record in force. -/
theorem metaHolder_ne_of_loadPage {side : Side} (h : loadPage flash side = none) :
    metaHolder flash ≠ some side := by
  intro hholder
  have hcopy := DualCopy.copies_holder hholder
  have hsome : (DualCopy.authoritative (fun m : Metadata => m.counter.toNat)
      (loadPage flash)).isSome := by
    rw [← DualCopy.holder_isSome_iff]
    exact Option.isSome_iff_exists.mpr ⟨side, hholder⟩
  rw [← hcopy, h] at hsome
  cases hsome

/-- Both calls of a metadata write are in reach: the page is not the holder
before the erase, and nothing after it. -/
theorem writeAllowed_confined (flash : Flash) (src : Metadata) :
    Action.WriteAllowed flash confined src := by
  set page := (selectTarget flash).1 with hpage
  have herased : loadPage (flash.erased (metaPage page)) page = none :=
    loadPage_eq_none (Memory.fill_apply_of_mem _ _ (by omega) (by omega))
  refine ⟨.inr ⟨page, metaHolder_ne_target flash, Nat.le_refl _, Nat.le_refl _⟩,
    .inr ⟨page, metaHolder_ne_of_loadPage herased, Nat.le_refl _, ?_⟩⟩
  change (metaPage page).toNat + (writtenRecord flash src).toBytes.length ≤ _
  rw [Metadata.length_toBytes]
  omega

/-- A write that stopped anywhere changed nothing but spare addresses. -/
theorem WriteStopped.spare (h : WriteStopped flash src after) {a : Nat} (ha : ¬ Spare flash a) :
    after a = flash a := by
  rcases h with rfl | ⟨count, -, rfl⟩
  · rfl
  · have houtside : a + 1 ≤ (metaPage (selectTarget flash).1).toNat ∨
        (metaPage (selectTarget flash).1).toNat + 2048 ≤ a := by
      by_contra hinside
      exact ha (.inr ⟨_, metaHolder_ne_target flash, by omega, by omega⟩)
    exact tornImage_agreeOn houtside a (Nat.le_refl _) (Nat.lt_succ_self a)

/-! ## Actions -/

/-- The calls of an action are in reach. -/
theorem Action.allowed_confined {t : Transfer} {a : Action} (hb : t.Bounded)
    (hjustified : a.Justified flash t) (htracked : Tracked flash t) :
    a.Allowed flash t confined := by
  cases a with
  | answer | abort => trivial
  | start | finish => exact writeAllowed_confined _ _
  | store seq block =>
      obtain ⟨hstate, hblock⟩ := hjustified
      have hfree := htracked.freeSlot_eq hstate
      have haddr := Transfer.toNat_blockAddr hb
      have hsize := hb.size
      have hfits := hblock.fits
      have hpos := hblock.nonempty
      refine ⟨fun hpage => .inl ?_, .inl ?_⟩
      · rw [Transfer.pageBoundary_iff] at hpage
        rw [hfree]
        change _ ≤ t.blockAddr.toNat ∧ t.blockAddr.toNat + 2048 ≤ _
        omega
      · -- erasing a page of the slot changes nothing of the metadata
        have hready : freeSlot (t.pageReady flash) = t.targetSlot := by
          have hchanged := Transfer.pageReady_changedWithin hb hblock flash
          rw [freeSlot_eq, ledgerOrBlank, hchanged.ledgerAt, ← ledgerOrBlank, ← freeSlot_eq, hfree]
        rw [hready]
        change _ ≤ t.blockAddr.toNat ∧ t.blockAddr.toNat + block.length ≤ _
        omega

theorem Action.Stopped.spare {t : Transfer} {a : Action} (h : a.Stopped flash t after)
    (hb : t.Bounded) (hjustified : a.Justified flash t) (htracked : Tracked flash t) {addr : Nat}
    (haddr : ¬ Spare flash addr) : after addr = flash addr := by
  cases a with
  | answer | abort => exact h.elim
  | start | finish => exact WriteStopped.spare h haddr
  | store seq block =>
      have hfree := htracked.freeSlot_eq hjustified.1
      refine h.changedWithin hb hjustified.2 addr fun hcovers => haddr (.inl ?_)
      rw [hfree]
      exact hcovers

theorem ActionEffect.spare {quiet : Prop} {p : Protocol} {p? : Option Protocol} {a : Action}
    (h : ActionEffect quiet flash p a after p?) (hb : p.Bounded)
    (hjustified : a.Justified flash p.toTransfer) (htracked : Tracked flash p.toTransfer)
    {addr : Nat} (haddr : ¬ Spare flash addr) : after addr = flash addr := by
  cases h with
  | performed =>
      rcases hjustified.stopped_image with heq | hstopped
      · rw [heq]
      · exact hstopped.spare hb hjustified htracked haddr
  | failed hstopped => exact hstopped.spare hb hjustified htracked haddr
  | cut hstopped => exact hstopped.spare hb hjustified htracked haddr

end Reach

/-- In every state that a board reaches, whatever byte the protocol manager is fed
and whatever becomes of its flash operations, each of its calls lies inside the
slot that the record of that moment does not name, or inside a page that does
not hold that record, and nothing else in flash is changed. -/
theorem protocol_in_reach {flash : Flash} {events : List Event}
    (hguard : Transition.Guarded Board.step (fun b _ => CounterOk b.flash) ⟨flash, .reset⟩ events)
    {u : Session} (hmode : (Board.run ⟨flash, .reset⟩ events).mode = .update u) (byte : UInt8)
    (faults : List Fault) :
    (∀ call ∈ ((u.proto.feed byte).run
        ⟨(Board.run ⟨flash, .reset⟩ events).flash, faults, []⟩).2.calls,
      InReach call.1 call.2) ∧
    ∀ addr, ¬ Spare (Board.run ⟨flash, .reset⟩ events).flash addr →
      ((u.proto.feed byte).run
        ⟨(Board.run ⟨flash, .reset⟩ events).flash, faults, []⟩).2.state addr =
      (Board.run ⟨flash, .reset⟩ events).flash addr := by
  have hreset : (⟨flash, .reset⟩ : Board).Bounded ∧ (⟨flash, .reset⟩ : Board).Tracked := by
    refine ⟨Board.bounded_reset flash, fun u hu => ?_⟩
    cases hu
  have hrun := Transition.invariant_run Board.step (fun b => b.Bounded ∧ b.Tracked)
    (fun b e h hcounter => ⟨Board.bounded_step h.1 e, Board.tracked_step hcounter h.1 h.2⟩) hreset
    hguard
  rw [← Board.run] at hrun
  generalize Board.run ⟨flash, .reset⟩ events = b at hmode hrun ⊢
  have hb := hrun.1 u hmode
  have htracked := hrun.2 u hmode
  have hjustified : (u.proto.byteAction b.flash byte).Justified b.flash u.proto.toTransfer :=
    byteAction_justified hb byte
  have hacts : Acts confined b.flash { u.proto with rx := (u.proto.rx.feed byte).1 }
      (u.proto.byteAction b.flash byte) (u.proto.feed byte) := feed_acts hb byte
  have hout := (hacts (Action.allowed_confined hb hjustified htracked)).run_from faults
    fun _ _ => trivial
  cases hx : (u.proto.feed byte).run ⟨b.flash, faults, []⟩ with
  | mk out w =>
      rw [hx] at hout
      cases out with
      | done p' =>
          exact ⟨hout.2, fun addr haddr => hout.1.spare hb hjustified htracked haddr⟩
      | cut => exact ⟨hout.2, fun addr haddr => hout.1.spare hb hjustified htracked haddr⟩

/-- The first START_UPDATE of a board marks slot B, and its calls are in reach. -/
theorem protocol_in_reach_firstStart :
    ∃ front last u, front ++ [Event.byte last []] = [.boot false 0 [], .poll 0] ++
        frameEvents cmdStartUpdate 0 (startPayload 8 0 1 .b) ∧
      (Board.blank.run front).mode = .update u ∧
      ledgerAt ((u.proto.feed last).run ⟨(Board.blank.run front).flash, [], []⟩).2.state =
        some ((Edit.start 8 0 1).apply .blank) ∧
      ∀ call ∈ ((u.proto.feed last).run ⟨(Board.blank.run front).flash, [], []⟩).2.calls,
        InReach call.1 call.2 := by
  obtain ⟨front, last, rx, hframe, -, hfront, haction, -⟩ :=
    Board.run_frame_front Board.blank.flash waitingSession 0 false cmdStartUpdate 0
      (startPayload 8 0 1 .b) (.inl (rfl : protocolInit.rx.state = .magic0)) (by decide)
      (by decide : _ ≤ 512)
  have hstart := action_start (t := protocolInit.toTransfer) Board.blank.flash 0 0 1
    (by decide : (8 : UInt32) ≠ 0) (by decide)
  rw [Board.blank_freeSlot] at hstart
  rw [hstart] at haction
  set proto : Protocol := { protocolInit with rx } with hproto
  have hrun : Board.blank.run ([.boot false 0 [], .poll 0] ++ front.map (Event.byte · [])) =
      ⟨Board.blank.flash, .update (waitingSession.draining proto 0 486 true)⟩ := by
    rw [Board.run_append, Board.run_waiting]
    exact hfront
  have hmode := congrArg Board.mode hrun
  have hb : proto.Bounded := Transfer.Bounded.init
  have hfeed : Acts .calm Board.blank.flash _ _ (proto.feed last) := feed_acts hb last
  rw [haction] at hfeed
  obtain ⟨p', w, hdone, hstate, -⟩ := hfeed.run_calm trivial
  have hlength : (front.map (Event.byte · [])).length + 1 = 27 := by
    have hboth := congrArg List.length hframe
    rw [length_frameEvents, length_startPayload, List.length_append] at hboth
    exact hboth.symm
  have hguard : Transition.Guarded Board.step (fun b _ => CounterOk b.flash) Board.blank
      ([.boot false 0 [], .poll 0] ++ front.map (Event.byte · [])) := by
    refine counterOk_guarded Board.blank_bounded ?_
    rw [Board.blank_counter, List.length_append, List.length_cons, List.length_cons,
      List.length_nil]
    omega
  refine ⟨_, last, _, by rw [List.append_assoc, hframe], hmode, ?_,
    (protocol_in_reach hguard hmode last []).1⟩
  rw [congrArg Board.flash hrun]
  change ledgerAt ((proto.feed last).run ⟨Board.blank.flash, [], []⟩).2.state = _
  rw [hdone, hstate]
  change ledgerAt (completeImage _ _) = _
  have hcounter : CounterOk Board.blank.flash := by
    rw [counterOk_iff, Board.blank_counter]
    decide
  rw [ledgerAt_startRecord hcounter 0 1 (by decide : (8 : UInt32) ≤ slotSize), Board.blank_ledger]

end OtaBoot
