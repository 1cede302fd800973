import OtaBoot.Host.Attached
import OtaBoot.Host.Network
import OtaBoot.Properties.NewVersion

/-!
# Runs of the tool on a device

Whatever the update tool writes and however the channel spreads it, the link that the
tool talks to is what a device in update mode becomes in the same turns. So a run of
the tool is a run of the device.
-/

namespace OtaBoot.Host

open Raising

/-! ## What a program does to the input alone -/

/-- The property does not look at what is left to be read. -/
def Unread (P : Link → Prop) : Prop := ∀ l inbox, P l → P { l with inbox }

section Unread

variable {P : Link → Prop}

theorem Unread.ensures_flushInput (hP : Unread P) (channel : Channel) :
    Ensures P (flushInput channel) (fun _ => P) fun _ => P :=
  .get_bind fun l hl => .set (hP l [] hl)

theorem Unread.ensures_receive (hP : Unread P) (channel : Channel) :
    Ensures P channel.wire.receive (fun _ => P) fun _ => P :=
  Wire.ensures_receive (fun l _ bytes hl _ => hP l bytes hl) fun l bytes hl => hP l bytes hl

end Unread

/-! ## What a program writes -/

/-- The manager of the link is a good one, and the link came about by writes that a
device in update mode follows. -/
def Following (channel : Channel) (d : Device) (u : Session) (start : Link)
    (good : Protocol → Prop) (l : Link) : Prop :=
  good l.proto ∧ ∃ entries polls, Follows channel d u start l entries polls

/-- A write that the device can follow, and what kind of manager it leaves. -/
structure Admits (channel : Channel) (u : Session) (good good' : Protocol → Prop)
    (raw : List UInt8) : Prop where
  attends : ∀ l : Link, good l.proto → Attends u l.unsent (channel l raw)
  leaves : ∀ l : Link, good l.proto → good' (l.write channel raw).proto

section Following

variable {channel : Channel} {d : Device} {u : Session} {start : Link} {good good' : Protocol → Prop}
  {frame : Frame}

theorem unread_following : Unread (Following channel d u start good) :=
  fun _ inbox ⟨hgood, entries, polls, hfollows⟩ => ⟨hgood, entries, polls, hfollows.keep inbox⟩

theorem Following.write {l : Link} (h : Following channel d u start good l) (hdrain : u.drain = none)
    {raw : List UInt8} (hadmits : Admits channel u good good' raw) :
    Following channel d u start good' (l.write channel raw) := by
  obtain ⟨hgood, entries, polls, hfollows⟩ := h
  exact ⟨hadmits.leaves l hgood, _, _, hfollows.write hdrain (hadmits.attends l hgood)⟩

/-- What is more than good is good. -/
theorem Following.mono {l : Link} (h : Following channel d u start good l)
    (hless : ∀ p, good p → good' p) : Following channel d u start good' l :=
  h.imp_left (hless _)

/-- An exchange, with as many attempts as it may take. -/
theorem ensures_exchange (hdrain : u.drain = none)
    (h : ∀ raw, encode frame = .ok raw → Admits channel u good good raw) (attempts : Nat) :
    Ensures (Following channel d u start good) (exchange channel frame attempts)
      (fun _ => Following channel d u start good) fun _ => Following channel d u start good := by
  have hread (l : Link) (bytes : List UInt8) (hl : Following channel d u start good l) :=
    unread_following l bytes hl
  refine (Wire.ensures_exchange channel.wire frame (fun _ => Following channel d u start good)
    (fun _ => Following channel d u start good) (fun _ => Following channel d u start good)
    attempts (fun _ raw l hraw hl => hl.write hdrain (h raw hraw)) ?_ ?_ ?_ ?_).conseq
    (fun _ hl => hl) (fun _ _ hl => hl) fun _ _ hl => hl.2
  · exact fun _ l _ bytes hl _ => hread l bytes hl
  · exact fun _ l bytes hl => hread l bytes hl
  · exact fun _ _ hl => hl
  · exact fun _ l hl => hread l [] hl

end Following

/-- The device can follow whatever the tool writes, and only the end of an update may
leave a manager that is not a good one. -/
structure Obliges (channel : Channel) (u : Session) (good good' : Protocol → Prop) : Prop where
  frame : ∀ frame raw, encode frame = .ok raw → frame.cmd ≠ cmdEndUpdate →
    Admits channel u good good raw
  finish : ∀ seq raw, encode ⟨cmdEndUpdate, seq, []⟩ = .ok raw → Admits channel u good good' raw
  trigger : Admits channel u good good (List.replicate 64 App.otaTriggerByte)
  less : ∀ p, good p → good' p

section Tool

-- the frames are known, but what they are encoded to is not looked at
attribute [local irreducible] encode

variable {channel : Channel} {d : Device} {u : Session} {start : Link} {good good' : Protocol → Prop}

theorem Obliges.ensures_exchange (h : Obliges channel u good good') (hdrain : u.drain = none)
    {cmd : Nat} (hcmd : cmd ≠ cmdEndUpdate) (seq : Nat) (data : List UInt8) (attempts : Nat) :
    Ensures (Following channel d u start good) (exchange channel ⟨cmd, seq, data⟩ attempts)
      (fun _ => Following channel d u start good) fun _ => Following channel d u start good :=
  OtaBoot.Host.ensures_exchange hdrain (fun raw hraw => h.frame _ raw hraw hcmd) attempts

theorem Obliges.ensures_sendBlocks (h : Obliges channel u good good') (hdrain : u.drain = none)
    (seq : Nat) (blocks : List (List UInt8)) :
    Ensures (Following channel d u start good) (sendBlocks channel seq blocks)
      (fun _ => Following channel d u start good) fun _ => Following channel d u start good := by
  induction blocks generalizing seq with
  | nil => exact .pure fun _ hl => hl
  | cons block blocks ih =>
      have hdata : cmdData ≠ cmdEndUpdate := by decide
      have hblock : Ensures (Following channel d u start good)
          (tryCatch (do
            let rep ← exchange channel ⟨cmdData, seq, block⟩ 3
            pure (some rep)) fun e =>
              if e = .disconnected then throw e
              else if e.IsTransportError then pure none
              else throw e : HostM (Option Frame))
          (fun _ => Following channel d u start good) fun _ => Following channel d u start good := by
        refine .tryCatch (.bind (h.ensures_exchange hdrain hdata seq block 3) fun rep =>
          .pure fun _ hl => hl) fun e => .ite (fun _ => .throw fun _ hl => hl) fun _ => ?_
        exact .ite (fun _ => .pure fun _ hl => hl) fun _ => .throw fun _ hl => hl
      refine hblock.bind fun rep? => ?_
      cases rep? with
      | none => exact .pure fun _ hl => hl
      | some rep => exact .ite (fun _ => .pure fun _ hl => hl) fun _ => ih _

/-- The end of an update is written once. -/
theorem Obliges.ensures_finish (h : Obliges channel u good good') (hdrain : u.drain = none)
    (seq : Nat) :
    Ensures (Following channel d u start good) (exchange channel ⟨cmdEndUpdate, seq, []⟩ 1)
      (fun _ => Following channel d u start good') fun _ => Following channel d u start good' := by
  have hsend : Ensures (Following channel d u start good)
      (channel.wire.send ⟨cmdEndUpdate, seq, []⟩)
      (fun _ => Following channel d u start good') fun _ => Following channel d u start good' :=
    (Wire.ensures_send fun raw l hraw hl => hl.write hdrain (h.finish seq raw hraw)).conseq
      (fun _ hl => hl) (fun _ _ hl => hl) fun _ _ hl => hl.mono h.less
  refine .tryCatch (.bind hsend fun _ => unread_following.ensures_receive channel) fun e =>
    .ite (fun _ => ?_) fun _ => .throw fun _ hl => hl
  exact .throw fun _ hl => hl

theorem Obliges.ensures_sendFirmware (h : Obliges channel u good good') (hdrain : u.drain = none)
    (firmware : List UInt8) (slot version : Nat) :
    Ensures (Following channel d u start good) (sendFirmware channel firmware slot version)
      (fun _ => Following channel d u start good') fun _ => Following channel d u start good' := by
  have hstart : cmdStartUpdate ≠ cmdEndUpdate := by decide
  have hless (l : Link) (hl : Following channel d u start good l) :
      Following channel d u start good' l := hl.mono h.less
  refine .bind (.ofExcept (fun _ _ _ hl => hl) fun _ _ => hless) fun su => ?_
  refine .bind ((h.ensures_exchange hdrain hstart 0 su 3).conseq (fun _ hl => hl)
    (fun _ _ hl => hl) fun _ => hless) fun rep => .ite (fun _ => .pure hless) fun _ => ?_
  refine .bind ((h.ensures_sendBlocks hdrain 1 _).conseq (fun _ hl => hl)
    (fun _ _ hl => hl) fun _ => hless) fun seq? => ?_
  cases seq? with
  | none => exact .pure hless
  | some seq =>
      refine .bind (.tryCatch (h.ensures_finish hdrain seq) fun e => .ite (fun _ =>
        (unread_following.ensures_receive channel)) fun _ => .throw fun _ hl => hl) fun rep => ?_
      exact .ite (fun _ => .pure fun _ hl => hl) fun _ => .pure fun _ hl => hl

theorem Obliges.ensures_readInfo (h : Obliges channel u good good') (hdrain : u.drain = none) :
    Ensures (Following channel d u start good) (readInfo channel)
      (fun _ => Following channel d u start good) fun _ => Following channel d u start good := by
  have hinfo : cmdGetInfo ≠ cmdEndUpdate := by decide
  unfold readInfo
  refine .bind (h.ensures_exchange hdrain hinfo 0 [] 3) fun rep => ?_
  refine .ite (fun _ => .throw fun _ hl => hl) fun _ => .ite (fun _ => .throw fun _ hl => hl) ?_
  exact fun _ => .ofExcept (fun _ _ _ hl => hl) fun _ _ _ hl => hl

theorem Obliges.ensures_holdDown (h : Obliges channel u good good') (hdrain : u.drain = none)
    (bursts : Nat) :
    Ensures (Following channel d u start good) (holdDown channel bursts)
      (fun _ => Following channel d u start good) fun _ => Following channel d u start good := by
  induction bursts with
  | zero => exact .pure fun _ hl => hl
  | succ bursts ih =>
      refine .get_bind fun l hl => ?_
      have hwrite : Ensures (· = l) (set (l.write channel (List.replicate 64 App.otaTriggerByte)) :
          HostM Unit) (fun _ => Following channel d u start good)
          fun _ => Following channel d u start good := .set (hl.write hdrain h.trigger)
      exact hwrite.bind fun _ => ih

theorem Obliges.ensures_awaitBootloader (h : Obliges channel u good good')
    (hdrain : u.drain = none) (attempts : Nat) :
    Ensures (Following channel d u start good) (awaitBootloader channel attempts)
      (fun _ => Following channel d u start good) fun _ => Following channel d u start good := by
  induction attempts with
  | zero => exact .pure fun _ hl => hl
  | succ attempts ih =>
      have hask : Ensures (Following channel d u start good)
          (tryCatch (do
            let _ ← readInfo channel
            pure true) fun e => if e.IsTransportError then pure false else throw e : HostM Bool)
          (fun _ => Following channel d u start good) fun _ => Following channel d u start good := by
        refine .tryCatch (.bind (h.ensures_readInfo hdrain) fun _ => .pure fun _ hl => hl) fun e => ?_
        exact .ite (fun _ => .pure fun _ hl => hl) fun _ => .throw fun _ hl => hl
      exact hask.bind fun answers => .ite (fun _ => .pure fun _ hl => hl) fun _ => ih

theorem Obliges.ensures_attempt (h : Obliges channel u good good') (hdrain : u.drain = none)
    (bursts : Nat) (args : Args) :
    Ensures (Following channel d u start good) (attempt channel bursts args)
      (fun _ => Following channel d u start good') fun _ => Following channel d u start good' := by
  have hless (l : Link) (hl : Following channel d u start good l) :
      Following channel d u start good' l := hl.mono h.less
  have hask : Ensures (Following channel d u start good)
      (tryCatch (readInfo channel) fun e =>
        if e.IsTransportError then do
          let up ← triggerOta channel bursts
          if up then readInfo channel else throw e
        else throw e)
      (fun _ => Following channel d u start good) fun _ => Following channel d u start good := by
    refine .tryCatch (h.ensures_readInfo hdrain) fun e => .ite (fun _ => ?_) fun _ =>
      .throw fun _ hl => hl
    refine .bind (.bind (h.ensures_holdDown hdrain bursts) fun _ =>
      .bind (unread_following.ensures_flushInput channel) fun _ => h.ensures_awaitBootloader hdrain 5)
      fun up => ?_
    exact .ite (fun _ => h.ensures_readInfo hdrain) fun _ => .throw fun _ hl => hl
  refine .bind (hask.conseq (fun _ hl => hl) (fun _ _ hl => hl) fun _ => hless) fun nfo => ?_
  refine .ite (fun _ => .pure hless) fun _ => .ite (fun _ => .pure hless) fun _ => ?_
  dsimp only
  cases args.firmware nfo.freeSlot with
  | none => exact .pure hless
  | some firmware =>
      refine .ite (fun _ => .pure hless) fun _ => ?_
      exact .bind (h.ensures_sendFirmware hdrain _ _ _) fun _ => .pure fun _ hl => hl

/-- A run of the tool is followed by the device. -/
theorem Obliges.ensures_flashMain (h : Obliges channel u good good') (hdrain : u.drain = none)
    (bursts : Nat) (args : Args) :
    Ensures (Following channel d u start good) (flashMain channel bursts args)
      (fun _ => Following channel d u start good') fun _ => Following channel d u start good' :=
  .tryCatch (h.ensures_attempt hdrain bursts args) fun _ =>
    .ite (fun _ => .pure fun _ hl => hl) fun _ => .throw fun _ hl => hl

/-! ## Any channel -/

/-- Whatever is written, the board polls while its listen window is open or a transfer
is under way, and gets nothing more once its update is complete. -/
def Channel.Attentive (channel : Channel) (u : Session) : Prop :=
  ∀ l raw, Attends u (Link.unsent l) (channel l raw)

theorem Channel.Attentive.obliges (h : channel.Attentive u) :
    Obliges channel u (fun _ => True) fun _ => True where
  frame _ raw _ _ := ⟨fun l _ => h l raw, fun _ _ => trivial⟩
  finish _ raw _ := ⟨fun l _ => h l raw, fun _ _ => trivial⟩
  trigger := ⟨fun l _ => h l _, fun _ _ => trivial⟩
  less _ _ := trivial

end Tool

end OtaBoot.Host
