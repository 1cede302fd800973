import OtaBoot.Device

/-!
# What a pass of the application does

One rule for each function of the application, for whatever does not concern the
port and the transmitter. The ledger of the trigger, `Paid`, says that every
clean poll on record was paid for with a trigger byte on the line.
-/

namespace OtaBoot.App

open Driven (Triple Within)

variable {allowed : Move → Prop} {p : Hardware → Prop}

/-- What neither the moves nor the use of the port and of the transmitter changes. -/
structure Blind (allowed : Move → Prop) (p : Hardware → Prop) : Prop where
  move : ∀ hw m, allowed m → p hw → p (hw.move m)
  odr : ∀ hw value, p hw → p { hw with odr := value }
  tx : ∀ hw tx, p hw → p { hw with tx }

/-- A program keeps a fact at every moment. -/
def Keeps {α : Type} (allowed : Move → Prop) (p : Hardware → Prop) (x : AppCode α) : Prop :=
  Triple allowed p x (fun _ => p) p

section Keeps

variable {α β : Type}

theorem Keeps.pure (a : α) : Keeps allowed p (Pure.pure a : AppCode α) :=
  Triple.pure fun _ h => h

theorem Keeps.bind {x : AppCode α} {f : α → AppCode β} (hx : Keeps allowed p x)
    (hf : ∀ a, Keeps allowed p (f a)) : Keeps allowed p (x >>= f) :=
  Triple.bind hx hf

theorem keeps_load (hmove : ∀ hw m, allowed m → p hw → p (hw.move m)) (reg : Hardware → UInt32) :
    Keeps allowed p (load reg) :=
  .access hmove (fun _ h => h) fun _ h => h

theorem keeps_store {write : Hardware → Hardware}
    (hmove : ∀ hw m, allowed m → p hw → p (hw.move m)) (hwrite : ∀ hw, p hw → p (write hw)) :
    Keeps allowed p (store write) :=
  .access hmove (fun _ h => h) hwrite

theorem keeps_clearOverrun (hmove : ∀ hw m, allowed m → p hw → p (hw.move m))
    (hclear : ∀ hw, p hw → p { hw with ore := false }) : Keeps allowed p clearOverrun :=
  .bind (keeps_load hmove _) fun _ => .ite (fun _ => keeps_store hmove hclear) fun _ => Keeps.pure _

variable (hp : Blind allowed p)

include hp

theorem Blind.keeps_putc (c : UInt8) : Keeps allowed p (uartPutc c) := by
  refine Keeps.bind (.await hp.move (fun _ h => h) (fun _ h _ => h) fun _ h _ => h) fun _ => ?_
  exact keeps_store hp.move fun hw h => hp.tx hw _ h

theorem Blind.keeps_puts (s : List UInt8) : Keeps allowed p (uartPuts s) := by
  induction s with
  | nil => exact .pure ()
  | cons c s ih => exact .bind (hp.keeps_putc c) fun _ => ih

theorem Blind.keeps_dec (v : UInt32) : Keeps allowed p (uartDec v) := by
  unfold uartDec
  split
  · exact hp.keeps_putc _
  · split
    · exact hp.keeps_puts _
    · exact .pure ()

theorem Blind.keeps_blink : Keeps allowed p blink := by
  refine .bind (keeps_load hp.move _) fun _ => .bind (keeps_load hp.move _) fun _ =>
    .bind (keeps_store hp.move ?_) fun _ => .bind (keeps_load hp.move _) fun _ => .pure _
  intro hw h
  unfold Hardware.writeOdr
  split
  · exact hp.odr hw _ h
  · exact h

theorem Blind.keeps_awaitReport (budget : Nat) : Keeps allowed p (awaitReport budget) := by
  induction budget with
  | zero => exact .pure _
  | succ budget ih =>
      refine .bind (keeps_load hp.move _) fun _ => ?_
      split
      · exact .pure _
      · exact ih

theorem Blind.keeps_report (cycle : UInt32) : Keeps allowed p (report cycle) :=
  .bind hp.keeps_blink fun _ => .bind (hp.keeps_puts _) fun _ => .bind (hp.keeps_dec _) fun _ =>
    .bind (hp.keeps_puts _) fun _ => .bind (hp.keeps_awaitReport _) fun _ => .pure _

theorem Blind.keeps_softwareReset : Keeps allowed p softwareReset :=
  .bind (.await hp.move (fun _ h => h) (fun _ h _ => h) fun _ h _ => h) fun _ => .pure _

theorem Blind.keeps_checkLink : Keeps allowed p checkLink :=
  .bind (keeps_load hp.move _) fun _ => .pure _

end Keeps

/-- What the receiver does not change either. -/
structure Aside (allowed : Move → Prop) (p : Hardware → Prop) : Prop extends Blind allowed p where
  ore : ∀ hw, p hw → p { hw with ore := false }
  rdr : ∀ hw, p hw → p { hw with rdr := none }

section Aside

variable (hp : Aside allowed p)

include hp

theorem Aside.keeps_getc : Keeps allowed p uartGetc :=
  .bind (keeps_clearOverrun hp.move hp.ore) fun _ => .bind (keeps_load hp.move _) fun _ =>
    .ite (fun _ => Keeps.bind (.access hp.move (fun _ h => h) hp.rdr) fun _ => .pure _)
      fun _ => Keeps.pure _

theorem Aside.keeps_drainLoop (budget : Nat) (seen clean : Bool) :
    Keeps allowed p (drainLoop budget seen clean) := by
  induction budget generalizing seen clean with
  | zero => exact .pure _
  | succ budget ih =>
      refine .bind hp.keeps_getc fun byte? => ?_
      cases byte? with
      | none => exact .pure _
      | some c => exact ih _ _

theorem Aside.keeps_otaTriggerPoll (streak : Nat) : Keeps allowed p (otaTriggerPoll streak) :=
  .bind (hp.keeps_drainLoop _ _ _) fun _ => .pure _

theorem Aside.keeps_handOver
    (hrequest : ∀ hw, p hw → p { hw with request := bootRequestMagic }) :
    Keeps allowed p handOver :=
  .bind (hp.keeps_puts _) fun _ => .bind (keeps_store hp.move hrequest) fun _ =>
    hp.keeps_softwareReset

theorem Aside.keeps_appPass (hrequest : ∀ hw, p hw → p { hw with request := bootRequestMagic })
    (s : Loop) : Keeps allowed p (appPass s) := by
  refine .bind (hp.keeps_report _) fun work => .bind (hp.keeps_otaTriggerPoll _) fun out => ?_
  exact .ite (fun _ => Keeps.bind (hp.keeps_handOver hrequest) fun _ => .pure _) fun _ =>
    Keeps.bind hp.keeps_checkLink fun _ => .pure _

end Aside

/-! ## The receiver -/

/-- The byte waiting in `RDR` is a trigger byte. -/
def Hardware.waiting (hw : Hardware) : Nat := if hw.rdr = some otaTriggerByte then 1 else 0

/-- So many trigger bytes came in on the line. -/
def Hardware.triggers (hw : Hardware) : Nat := hw.heard.count otaTriggerByte

/-- So many trigger bytes are to the credit of the polls, besides the one that
waits: no more than there were `before`, and have come in since there were `since`. -/
def Paid (before since spent : Nat) (hw : Hardware) : Prop :=
  spent + hw.waiting + since ≤ before + hw.triggers

variable {before since spent : Nat}

theorem Paid.start (hw : Hardware) (spent : Nat) :
    Paid (spent + hw.waiting) hw.triggers spent hw := Nat.le_refl _

theorem Paid.le {hw : Hardware} {less : Nat} (h : Paid before since spent hw) (hless : less ≤ spent) :
    Paid before since less hw := by
  unfold Paid at h ⊢
  omega

theorem Paid.arrives {hw : Hardware} (h : Paid before since spent hw) (byte : UInt8) :
    Paid before since spent (hw.arrives byte) := by
  unfold Paid Hardware.waiting Hardware.triggers at h ⊢
  unfold Hardware.arrives
  dsimp only
  split
  · rw [List.count_append]
    dsimp only
    omega
  · split
    · rw [List.count_append]
      dsimp only
      omega
    next hempty =>
      rw [hempty, if_neg (by simp)] at h
      rw [List.count_append, List.count_singleton]
      by_cases hbyte : byte = otaTriggerByte
      · simp only [hbyte, if_true, beq_self_eq_true]
        omega
      · simp only [Option.some.injEq, hbyte, if_false, beq_iff_eq]
        omega

theorem blind_paid : Blind allowed (Paid before since spent) where
  move := by
    intro hw m _ h
    cases m with
    | arrives byte => exact h.arrives byte
    | shifts | gates | disables => exact h
  odr _ _ h := h
  tx _ _ h := h

theorem rdrByte_toUInt32 (byte : UInt8) : rdrByte byte.toUInt32 = byte := by
  apply UInt8.toNat_inj.mp
  have hlt := byte.toNat_lt
  simp only [rdrByte, UInt32.toNat_toUInt8, UInt32.toNat_and, UInt8.toNat_toUInt32]
  rw [show (0xFF : UInt32).toNat = 2 ^ 8 - 1 from rfl, Nat.and_two_pow_sub_one_eq_mod]
  omega

/-- Only a trigger byte that waits is read as one. -/
theorem Paid.readRdr {hw : Hardware} (h : Paid before since spent hw)
    (hread : rdrByte hw.readRdr.1 = otaTriggerByte) : Paid before since (spent + 1) hw.readRdr.2 := by
  have hwaiting : hw.rdr = some otaTriggerByte := by
    rw [Hardware.readRdr, rdrByte_toUInt32] at hread
    cases hrdr : hw.rdr with
    | none =>
        rw [hrdr] at hread
        exact absurd hread (by decide)
    | some byte =>
        rw [hrdr] at hread
        exact congrArg some hread
  unfold Paid Hardware.waiting Hardware.triggers at h ⊢
  rw [if_pos hwaiting] at h
  rw [Hardware.readRdr, if_neg nofun]
  dsimp only
  omega

theorem Paid.emptied {hw : Hardware} (h : Paid before since spent hw) :
    Paid before since spent hw.readRdr.2 := by
  unfold Paid at h ⊢
  unfold Hardware.waiting at h ⊢
  rw [Hardware.readRdr, if_neg nofun]
  change spent + 0 + since ≤ before + hw.triggers
  omega

/-- Taking a byte out of the receiver: a trigger byte pays for one more. -/
theorem triple_getc :
    Triple allowed (Paid before since spent) uartGetc
      (fun byte? hw => Paid before since spent hw ∧
        (byte? = some otaTriggerByte → Paid before since (spent + 1) hw))
      (Paid before since spent) := by
  have hpaid : Blind allowed (Paid before since spent) := blind_paid
  have hread : Triple allowed (Paid before since spent) (Driven.access Hardware.move Hardware.readRdr)
      (fun rdr hw => Paid before since spent hw ∧
        (rdrByte rdr = otaTriggerByte → Paid before since (spent + 1) hw)) (Paid before since spent) :=
    .access hpaid.move (fun _ h => h) fun hw h => ⟨h.emptied, h.readRdr⟩
  refine .bind (keeps_clearOverrun hpaid.move fun _ h => h) fun _ => .bind (keeps_load hpaid.move _)
    fun isr => .ite (fun _ => .bind hread fun rdr => .pure ?_) fun _ => .pure ?_
  · rintro hw ⟨h, hbyte⟩
    exact ⟨h, fun heq => hbyte (Option.some.inj heq)⟩
  · exact fun hw h => ⟨h, nofun⟩

/-- What a poll has to show for itself: a clean one has one byte more to its
credit. -/
def Drained (before since spent : Nat) (out : Bool × Bool) (hw : Hardware) : Prop :=
  Paid before since spent hw ∧ ((out.1 && out.2) = true → Paid before since (spent + 1) hw)

theorem triple_drainLoop (budget : Nat) (seen clean : Bool) :
    Triple allowed (Drained before since spent (seen, clean)) (drainLoop budget seen clean)
      (Drained before since spent) (Paid before since spent) := by
  induction budget generalizing seen clean with
  | zero => exact .pure fun _ h => h
  | succ budget ih =>
      have hgetc : Triple allowed (Drained before since spent (seen, clean)) uartGetc
          (fun byte? hw => Drained before since spent (seen, clean) hw ∧
            (byte? = some otaTriggerByte → Paid before since (spent + 1) hw)) (Paid before since spent) := by
        cases hclean : seen && clean with
        | true =>
            refine triple_getc.conseq (fun hw h => h.2 hclean) ?_
              fun hw h => h.le (Nat.le_succ spent)
            rintro byte? hw ⟨h, -⟩
            exact ⟨⟨h.le (Nat.le_succ spent), fun _ => h⟩, fun _ => h⟩
        | false =>
            refine triple_getc.conseq (fun hw h => h.1) ?_ fun hw h => h
            rintro byte? hw ⟨h, hbyte⟩
            exact ⟨⟨h, fun heq => absurd (hclean.symm.trans heq) Bool.false_ne_true⟩, hbyte⟩
      refine .bind hgetc fun byte? => ?_
      cases byte? with
      | none => exact .pure fun hw h => h.1
      | some c =>
          refine (ih true (clean && c = otaTriggerByte)).conseq ?_ (fun _ _ h => h) fun _ h => h
          rintro hw ⟨⟨h, -⟩, hbyte⟩
          refine ⟨h, fun hclean => hbyte ?_⟩
          rw [Bool.true_and, Bool.and_eq_true] at hclean
          exact congrArg some (of_decide_eq_true hclean.2)

/-- A poll that confirms the request has four polls to its credit, another one
as many as its streak says. -/
theorem triple_otaTriggerPoll (streak : Nat) :
    Triple allowed (Paid before since streak) (otaTriggerPoll streak)
      (fun out hw => if out.2 then Paid before since otaConfirmPolls hw else Paid before since out.1 hw)
      (Paid before since 0) := by
  have hdrain : Triple allowed (Paid before since streak) (drainLoop 16 false true)
      (Drained before since streak) (Paid before since 0) :=
    (triple_drainLoop 16 false true).conseq (fun _ h => ⟨h, nofun⟩) (fun _ _ h => h)
      fun _ h => h.le (Nat.zero_le _)
  refine .bind hdrain fun out => .pure ?_
  rintro hw ⟨h, hclean⟩
  unfold advanceStreak
  dsimp only
  split
  next htrue =>
    split
    next hfires => exact (hclean htrue).le hfires
    next => exact hclean htrue
  next hfalse =>
    rw [if_neg (by decide)]
    exact h.le (Nat.zero_le _)

/-! ## A pass -/

/-- What comes in concerns the receiver only. -/
theorem Hardware.arrives_eq (hw : Hardware) (byte : UInt8) :
    ∃ rdr ore, hw.arrives byte = { hw with heard := hw.heard ++ [byte], rdr, ore } := by
  unfold Hardware.arrives
  dsimp only
  split
  · exact ⟨_, _, rfl⟩
  · split <;> exact ⟨_, _, rfl⟩

theorem aside_true : Aside allowed fun _ => True where
  move _ _ _ _ := trivial
  odr _ _ _ := trivial
  tx _ _ _ := trivial
  ore _ _ := trivial
  rdr _ _ := trivial

theorem aside_request (word : UInt32) : Aside allowed fun hw => hw.request = word where
  move := by
    intro hw m _ h
    cases m with
    | arrives byte =>
        obtain ⟨rdr, ore, heq⟩ := hw.arrives_eq byte
        rwa [Hardware.move, heq]
    | shifts | gates | disables => exact h
  odr _ _ h := h
  tx _ _ h := h
  ore _ h := h
  rdr _ h := h

theorem triple_handOver :
    Triple allowed (Paid before since spent) handOver
      (fun _ hw => Paid before since spent hw ∧ hw.request = bootRequestMagic) (Paid before since spent) := by
  have hpaid : Blind allowed (Paid before since spent) := blind_paid
  have hset : Triple allowed (Paid before since spent) bootRequestSet
      (fun _ hw => Paid before since spent hw ∧ hw.request = bootRequestMagic) (Paid before since spent) :=
    .access hpaid.move (fun _ h => h) fun _ h => ⟨h, rfl⟩
  refine .bind (hpaid.keeps_puts _) fun _ => .bind hset fun _ => ?_
  refine (hpaid.keeps_softwareReset.and (aside_request _).keeps_softwareReset).conseq
    (fun _ h => h) (fun _ _ h => h) fun _ h => h.1

/-- What the trigger and the boot request word are after a pass. -/
def Passed (before since : Nat) (word : UInt32) (s : Loop) (hw : Hardware) : PassEnd → Prop
  | .handsOver => Paid before since otaConfirmPolls hw ∧ hw.request = bootRequestMagic
  | .goesOn _ => Paid before since s.streak hw ∧ hw.request = word

/-- During a pass the boot request word is set only once the polls were paid for. -/
theorem triple_appPass (s : Loop) (word : UInt32) :
    Triple allowed (fun hw => Paid before since s.streak hw ∧ hw.request = word) (appPass s)
      (fun out hw => Passed before since word out.1 hw out.2)
      (fun hw => hw.request = word ∨ Paid before since otaConfirmPolls hw) := by
  have hpaid : Blind allowed (Paid before since s.streak) := blind_paid
  refine .bind ((hpaid.keeps_report _).and ((aside_request word).keeps_report _) |>.conseq
    (fun _ h => h) (fun _ _ h => h) fun _ h => .inl h.2) fun work => ?_
  refine .bind (((triple_otaTriggerPoll s.streak).and
    ((aside_request word).keeps_otaTriggerPoll _)).conseq (fun _ h => h) (fun _ _ h => h)
    fun _ h => .inl h.2) fun out => .ite (fun hfires => ?_) fun hnot => ?_
  · refine .bind (triple_handOver.conseq ?_ (fun _ _ h => h)
      fun _ h => .inr h) fun _ => .pure fun _ h => h
    rintro hw ⟨h, -⟩
    rwa [if_pos hfires] at h
  · have hkeep : Blind allowed (Paid before since out.1) := blind_paid
    refine .bind ((hkeep.keeps_checkLink.and (aside_request word).keeps_checkLink).conseq ?_
      (fun _ _ h => h) fun _ h => .inl h.2) fun _ => .pure fun _ h => h
    rintro hw ⟨h, hword⟩
    rw [if_neg hnot] at h
    exact ⟨h, hword⟩

/-- What a pass makes of the loop: it takes a streak of clean polls to hand over. -/
def Advanced (s : Loop) (out : Loop × PassEnd) : Prop :=
  out.1.cycle = s.cycle + 1 ∧ out.1.confirmed = s.confirmed ∧
    match out.2 with
    | .handsOver => otaConfirmPolls ≤ s.streak + 1
    | .goesOn _ => out.1.streak ≤ s.streak + 1

theorem advanceStreak_cases (streak : Nat) (seen clean : Bool) :
    if (advanceStreak streak seen clean).2 then otaConfirmPolls ≤ streak + 1
    else (advanceStreak streak seen clean).1 ≤ streak + 1 := by
  unfold advanceStreak
  cases seen && clean with
  | true =>
      by_cases hfires : otaConfirmPolls ≤ streak + 1
      · simp only [if_true, ge_iff_le, hfires]
      · simp [hfires]
  | false => exact Nat.zero_le _

theorem triple_advanced (s : Loop) :
    Triple allowed (fun _ => True) (appPass s) (fun out _ => Advanced s out) (fun _ => True) := by
  have hany : Aside allowed fun _ => True := aside_true
  have hpoll : Triple allowed (fun _ => True) (otaTriggerPoll s.streak)
      (fun out _ => (if out.2 then otaConfirmPolls ≤ s.streak + 1 else out.1 ≤ s.streak + 1) ∧ True)
      (fun _ => True) :=
    .bind (hany.keeps_drainLoop _ _ _) fun out => .pure fun _ _ =>
      ⟨advanceStreak_cases s.streak out.1 out.2, trivial⟩
  refine .bind (hany.keeps_report _) fun work => .bind hpoll fun out => .of_and fun hout => ?_
  refine .ite (fun hfires => ?_) fun hnot => ?_
  · rw [if_pos hfires] at hout
    exact .bind (hany.keeps_handOver fun _ h => h) fun _ => .pure fun _ _ => ⟨rfl, rfl, hout⟩
  · rw [if_neg hnot] at hout
    exact .bind hany.keeps_checkLink fun _ => .pure fun _ _ => ⟨rfl, rfl, hout⟩

end OtaBoot.App
