import OtaBoot.Firmware.UartTx
import Mathlib.Data.Nat.Digits.Lemmas

/-!
# What is transmitted is what was written

The transmitter shifts at its own pace, between any two accesses of the driver.
A call spells a text when the transmitter has taken just this text once the call
returns, and the beginning of it at every moment before.
-/

namespace OtaBoot

open Driven (Triple)

/-! ## Flags -/

theorem txStatus_txe (t : Transmitter UInt8) : (txStatus t &&& isrTxe ≠ 0) ↔ t.ready = true := by
  unfold txStatus
  cases t.ready <;> cases t.idle <;> decide

theorem txStatus_tc (t : Transmitter UInt8) : (txStatus t &&& isrTc ≠ 0) ↔ t.idle = true := by
  unfold txStatus
  cases hidle : t.idle <;> cases t.ready <;> decide

/-! ## Texts -/

/-- Whatever was taken before, the program adds this text to it. -/
def Spells {α : Type} (x : TxCode α) (text : List UInt8) : Prop :=
  ∀ before, Triple (fun _ => True) (fun t => t.taken = before) x
    (fun _ t => t.taken = before ++ text)
    (fun t => ∃ front, front <+: text ∧ t.taken = before ++ front)

namespace Spells

variable {α β : Type} {x : TxCode α} {f : α → TxCode β} {front back : List UInt8}

theorem pure (a : α) : Spells (Pure.pure a : TxCode α) [] :=
  fun _ => .pure fun _ h => h.trans (List.append_nil _).symm

theorem bind (hx : Spells x front) (hf : ∀ a, Spells (f a) back) :
    Spells (x >>= f) (front ++ back) := by
  intro before
  have hfirst : Triple (fun _ => True) (fun t => t.taken = before) x
      (fun _ t => t.taken = before ++ front)
      (fun t => ∃ part, part <+: front ++ back ∧ t.taken = before ++ part) := by
    refine (hx before).conseq (fun _ h => h) (fun _ _ h => h) ?_
    rintro t ⟨part, hpart, htaken⟩
    exact ⟨part, hpart.trans (List.prefix_append _ _), htaken⟩
  refine .bind hfirst fun a => ?_
  refine (hf a (before ++ front)).conseq (fun _ h => h) (fun _ _ h => ?_) ?_
  · rw [h, List.append_assoc]
  · rintro t ⟨part, hpart, htaken⟩
    exact ⟨front ++ part, (List.prefix_append_right_inj _).mpr hpart,
      htaken.trans (List.append_assoc _ _ _)⟩

end Spells

/-- Waiting for a flag spells nothing, and the flag is found as it was wanted. -/
theorem triple_await {flag : UInt32} {holds : Transmitter UInt8 → Bool}
    (hflag : ∀ t, (txStatus t &&& flag ≠ 0) ↔ holds t = true) (before : List UInt8) :
    Triple (fun _ => True) (fun t => t.taken = before)
      (Driven.await txMove (fun t => (txStatus t, t)) fun isr => isr &&& flag ≠ 0)
      (fun _ t => t.taken = before ∧ holds t = true)
      (fun t => t.taken = before) := by
  refine .await (fun t _ _ h => (Transmitter.taken_advance t).trans h) (fun _ h => h)
    (fun _ h _ => h) (fun t h hwanted => ⟨h, (hflag t).mp ?_⟩)
  exact of_decide_eq_true hwanted

theorem spells_putc (c : UInt8) : Spells (uartPutc c) [c] := by
  intro before
  have hnone : ∀ t : Transmitter UInt8, t.taken = before →
      ∃ front, front <+: [c] ∧ t.taken = before ++ front :=
    fun t h => ⟨[], List.nil_prefix, h.trans (List.append_nil _).symm⟩
  refine .bind ((triple_await txStatus_txe before).conseq (fun _ h => h) (fun _ _ h => h) hnone) ?_
  intro _
  refine .access ?_ (fun t h => hnone t h.1) ?_
  · rintro t - - ⟨htaken, hready⟩
    exact ⟨(Transmitter.taken_advance t).trans htaken, Transmitter.ready_advance hready⟩
  · rintro t ⟨htaken, hready⟩
    rw [Transmitter.taken_put hready, htaken]

theorem spells_flush : Spells uartFlush [] := by
  intro before
  have hnone : ∀ t : Transmitter UInt8, t.taken = before →
      ∃ front, front <+: [] ∧ t.taken = before ++ front :=
    fun t h => ⟨[], List.prefix_refl [], h.trans (List.append_nil _).symm⟩
  refine .bind ((triple_await txStatus_tc before).conseq (fun _ h => h) (fun _ _ h => h) hnone) ?_
  intro _
  exact .pure fun _ h => h.1.trans (List.append_nil _).symm

theorem spells_writeLoop (data : List UInt8) : Spells (uartWriteLoop data) data := by
  induction data with
  | nil => exact .pure ()
  | cons byte data ih => exact .bind (spells_putc byte) fun _ => ih

theorem spells_putsLoop (s : List UInt8) :
    Spells (uartPutsLoop s) (s.takeWhile (· ≠ 0)) := by
  induction s with
  | nil => exact .pure ()
  | cons c s ih =>
      rw [uartPutsLoop]
      split
      next hend =>
        simp only [hend, ne_eq, not_true_eq_false, decide_false, Bool.false_eq_true,
          not_false_eq_true, List.takeWhile_cons_of_neg]
        exact .pure ()
      next hmore =>
        simp only [ne_eq, hmore, not_false_eq_true, decide_true, List.takeWhile_cons_of_pos]
        exact .bind (spells_putc c) fun _ => ih

/-! ## Numerals -/

/-- The decimal numeral of a number. -/
def decimal (n : Nat) : List UInt8 :=
  if n = 0 then [0x30] else (Nat.digits 10 n).reverse.map fun d => 0x30 + UInt8.ofNat d

/-- The last so many hexadecimal digits of a number. -/
def hexadecimal (count n : Nat) : List UInt8 :=
  (List.range count).reverse.map fun i => hexDigits.getD (n / 16 ^ i % 16) 0

/-- The array gets the digits, the most significant first, and they fit while the
number has no more of them than there is room. -/
theorem fillTmp_eq {room : Nat} {v : UInt32} (hroom : v.toNat < 10 ^ room) (tmp : List UInt8) :
    fillTmp room v tmp =
      some ((Nat.digits 10 v.toNat).reverse.map (fun d => 0x30 + UInt8.ofNat d) ++ tmp) := by
  induction room generalizing v tmp with
  | zero =>
      have hzero : v.toNat = 0 := by omega
      have hnot : ¬ v > 0 := by
        rw [gt_iff_lt, UInt32.lt_iff_toNat_lt]
        simp [hzero]
      rw [fillTmp, if_neg hnot, hzero]
      rfl
  | succ room ih =>
      rw [fillTmp]
      split
      next hpos =>
        have hmore : 0 < v.toNat := by simpa [UInt32.lt_iff_toNat_lt] using hpos
        have hdiv : (v / 10).toNat = v.toNat / 10 := UInt32.toNat_div v 10
        have hdigit : (v % 10).toUInt8 = UInt8.ofNat (v.toNat % 10) := by
          apply UInt8.toNat_inj.mp
          simp
        rw [ih (by rw [hdiv]; omega), hdiv, hdigit, Nat.digits_def' (by decide) hmore]
        simp
      next hnot =>
        have hzero : v.toNat = 0 := by
          have hle : ¬ 0 < v.toNat := by simpa [UInt32.lt_iff_toNat_lt] using hnot
          omega
        rw [hzero]
        rfl

theorem spells_dec (v : UInt32) : Spells (uartDec v) (decimal v.toNat) := by
  unfold uartDec decimal
  by_cases hzero : v = 0
  · rw [if_pos hzero, hzero]
    exact spells_putc 0x30
  · have hnat : ¬ v.toNat = 0 := fun h => hzero (UInt32.toNat_inj.mp h)
    have hfits : v.toNat < 10 ^ 10 := v.toNat_lt.trans (by norm_num)
    rw [if_neg hzero, if_neg hnat, fillTmp_eq hfits, List.append_nil]
    exact spells_writeLoop _

/-- A digit that is shifted down and masked. -/
theorem hexDigit_shift (v i : UInt32) (hi : i.toNat < 32) :
    hexDigit ((v >>> i) &&& 0xF) = hexDigits.getD (v.toNat / 2 ^ i.toNat % 16) 0 := by
  unfold hexDigit
  have hand : ((v >>> i) &&& 0xF).toNat = v.toNat / 2 ^ i.toNat % 16 := by
    rw [UInt32.toNat_and, UInt32.toNat_shiftRight, Nat.mod_eq_of_lt hi, Nat.shiftRight_eq_div_pow]
    exact Nat.and_two_pow_sub_one_eq_mod _ 4
  rw [hand]

theorem spells_hexLoop (v : UInt32) (shifts : List UInt32) :
    Spells (uartHexLoop v shifts) (shifts.map fun i => hexDigit ((v >>> i) &&& 0xF)) := by
  induction shifts with
  | nil => exact .pure ()
  | cons i rest ih => exact .bind (spells_putc _) fun _ => ih

theorem spells_hex32 (v : UInt32) :
    Spells (uartHex32 v) ([0x30, 0x78] ++ hexadecimal 8 v.toNat) := by
  refine .bind (spells_putsLoop _) fun _ => ?_
  have hbits : ∀ i ∈ ([28, 24, 20, 16, 12, 8, 4, 0] : List UInt32), i.toNat < 32 := by simp
  have htext : hexadecimal 8 v.toNat =
      ([28, 24, 20, 16, 12, 8, 4, 0] : List UInt32).map
        fun i => hexDigit ((v >>> i) &&& 0xF) := by
    rw [List.map_congr_left fun i hi => hexDigit_shift v i (hbits i hi)]
    simp [hexadecimal, List.range_succ]
  rw [htext]
  exact spells_hexLoop v _

theorem spells_hex8 (v : UInt8) : Spells (uartHex8 v) (hexadecimal 2 v.toNat) := by
  have htext : hexadecimal 2 v.toNat =
      [hexDigit ((v.toUInt32 >>> 4) &&& 0xF)] ++ [hexDigit (v.toUInt32 &&& 0xF)] := by
    have hlow := hexDigit_shift v.toUInt32 0 (by decide)
    rw [UInt32.shiftRight_zero] at hlow
    rw [hlow, hexDigit_shift _ _ (by decide)]
    simp [hexadecimal, List.range_succ]
  rw [htext]
  exact .bind (spells_putc _) fun _ => spells_putc _

/-! ## Calls -/

/-- The text that a call spells. -/
def TxCall.text : TxCall → List UInt8
  | .putc c => [c]
  | .puts s => (s.getD []).takeWhile (· ≠ 0)
  | .write data => data.getD []
  | .hex32 v => [0x30, 0x78] ++ hexadecimal 8 v.toNat
  | .hex8 v => hexadecimal 2 v.toNat
  | .dec v => decimal v.toNat
  | .flush => []

theorem TxCall.spells (call : TxCall) : Spells call.body call.text := by
  cases call with
  | putc c => exact spells_putc c
  | puts s =>
      cases s with
      | none => exact .pure ()
      | some s => exact spells_putsLoop s
  | write data =>
      cases data with
      | none => exact .pure ()
      | some data => exact spells_writeLoop data
  | hex32 v => exact spells_hex32 v
  | hex8 v => exact spells_hex8 v
  | dec v => exact spells_dec v
  | flush => exact spells_flush

theorem spells_transmit (calls : List TxCall) :
    Spells (transmit calls) (calls.flatMap TxCall.text) := by
  induction calls with
  | nil => exact .pure ()
  | cons call calls ih => exact .bind call.spells fun _ => ih

/-- A program that waits for the line at its end finds all of its text there. -/
theorem Spells.triple_flush {x : TxCode Unit} {text : List UInt8} (hx : Spells x text)
    (before : List UInt8) :
    Triple (fun _ => True) (fun t => t.taken = before) (x >>= fun _ => uartFlush)
      (fun _ t => t.line = before ++ text) (fun _ => True) := by
  refine .bind ((hx before).conseq (fun _ h => h) (fun _ _ h => h) fun _ _ => trivial) ?_
  intro _
  refine .bind ((triple_await txStatus_tc _).conseq (fun _ h => h) (fun _ _ h => h)
    fun _ _ => trivial) ?_
  intro _
  exact .pure fun t h => (Transmitter.line_eq_taken h.2).trans h.1

/-- Whatever calls are made, and whatever the pace of the transmitter, at every
moment the line carries the beginning of the text they spell after what was
written before; a flush at the end returns with all of it on the line, numbers
in decimal and hexadecimal. -/
theorem line_carries_text (t : Transmitter UInt8) (calls : List TxCall)
    (schedule : List (Turn Unit)) :
    ((transmit calls).run t schedule).1.line <+: t.taken ++ calls.flatMap TxCall.text ∧
      ∀ t' rest, (transmit calls >>= fun _ => uartFlush).run t schedule = (t', some ((), rest)) →
        t'.line = t.taken ++ calls.flatMap TxCall.text := by
  have hany : Driven.Within (fun _ : Unit => True) schedule := fun _ _ => trivial
  constructor
  · have hout := spells_transmit calls t.taken t rfl schedule hany
    cases hrun : (transmit calls).run t schedule with
    | mk t' back? =>
        rw [hrun] at hout
        cases back? with
        | none =>
            obtain ⟨front, hfront, htaken⟩ := hout
            refine t'.line_prefix_taken.trans ?_
            rw [htaken]
            exact (List.prefix_append_right_inj _).mpr hfront
        | some back =>
            refine t'.line_prefix_taken.trans ?_
            rw [hout.1]
  · intro t' rest hrun
    have hout := (spells_transmit calls).triple_flush t.taken t rfl schedule hany
    rw [hrun] at hout
    exact hout.1

/-- A number of two digits, the second written while the first is shifted out. -/
theorem line_carries_text_fortyTwo :
    ∃ t', t'.line = [0x34, 0x32] ∧
      ((transmit [.dec 42] >>= fun _ => uartFlush).run ⟨none, none, []⟩
        [.program, .program, .device (), .program, .program, .device (), .device (), .device (),
          .program]) = (t', some ((), [])) := by
  have hcarries := line_carries_text ⟨none, none, []⟩ [.dec 42]
    [.program, .program, .device (), .program, .program, .device (), .device (), .device (),
      .program]
  exact ⟨_, (hcarries.2 _ [] rfl).trans (by decide), rfl⟩

end OtaBoot
