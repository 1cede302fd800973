import Mathlib.Logic.Function.Iterate
import Mathlib.Tactic.Common

/-!
# Shift registers

The register that divides a stream of bits by a polynomial over GF(2): each bit
is added to the top bit of the register, which is then shifted out, and the
polynomial (without its leading term) is added when a one has left. The other
bit order, in which bits leave at the bottom, is the mirror image.

When the polynomial has a constant term, no clock loses information; a register
of `w` bits therefore tells apart any two streams that differ within `w`
consecutive bits.
-/

namespace ShiftRegister

variable {w : Nat}

/-- One clock. -/
def clock (p r : BitVec w) : BitVec w :=
  if r.msb then (r <<< 1) ^^^ p else r <<< 1

/-- A bit in the top place. -/
def top (b : Bool) : BitVec w := if b then BitVec.intMin w else 0#w

/-- One clock that takes in a bit. -/
def shiftIn (p r : BitVec w) (b : Bool) : BitVec w := clock p (r ^^^ top b)

/-- The register after a stream of bits. -/
def feed (p r : BitVec w) (bits : List Bool) : BitVec w := bits.foldl (shiftIn p) r

/-- Bits side by side, the first one in the top place. -/
def word : List Bool → BitVec w
  | [] => 0#w
  | b :: bits => top b ^^^ (word bits >>> 1)

@[simp] theorem feed_nil (p r : BitVec w) : feed p r [] = r := rfl

@[simp] theorem feed_cons (p r : BitVec w) (b : Bool) (bits : List Bool) :
    feed p r (b :: bits) = feed p (shiftIn p r b) bits := rfl

theorem feed_append (p r : BitVec w) (front back : List Bool) :
    feed p r (front ++ back) = feed p (feed p r front) back :=
  List.foldl_append

/-! ## Words -/

section Words

theorem getMsbD_top (b : Bool) {i : Nat} (hi : i < w) :
    (top b : BitVec w).getMsbD i = (decide (i = 0) && b) := by
  cases b with
  | false => simp [top]
  | true =>
      simp only [top, if_true, BitVec.getMsbD_eq_getLsbD, BitVec.getLsbD_intMin]
      grind

/-- Bit by bit, a word is its list. -/
theorem getMsbD_word (bits : List Bool) {i : Nat} (hi : i < w) :
    (word bits : BitVec w).getMsbD i = bits.getD i false := by
  induction bits generalizing i with
  | nil => simp [word]
  | cons b bits ih =>
      rw [word, BitVec.getMsbD_xor, getMsbD_top b hi, BitVec.getMsbD_ushiftRight]
      cases i with
      | zero => simp
      | succ i =>
          rw [Nat.add_sub_cancel, ih (Nat.lt_of_succ_lt hi)]
          simp [hi]

/-- Short lists of the same length are told apart by their words. -/
theorem word_injective {x y : List Bool} (hlen : x.length = y.length) (hfits : x.length ≤ w)
    (h : (word x : BitVec w) = word y) : x = y := by
  apply List.ext_getElem hlen
  intro i hi hi'
  have hbit := congrArg (fun v => BitVec.getMsbD v i) h
  simpa [getMsbD_word _ (Nat.lt_of_lt_of_le hi hfits), hi, hi'] using hbit

end Words

/-! ## Clocks -/

section Clocks

variable (p : BitVec w)

/-- A clock is linear. -/
theorem clock_xor (r s : BitVec w) : clock p (r ^^^ s) = clock p r ^^^ clock p s := by
  simp only [clock, BitVec.msb_xor, BitVec.shiftLeft_xor_distrib]
  cases r.msb <;> cases s.msb
  · simp
  · simp [BitVec.xor_assoc]
  · simp [BitVec.xor_assoc, BitVec.xor_comm p]
  · simp only [bne_self_eq_false, Bool.false_eq_true, if_false, if_true]
    rw [BitVec.xor_assoc, ← BitVec.xor_assoc p, BitVec.xor_comm p, BitVec.xor_assoc,
      BitVec.xor_self, BitVec.xor_zero]

/-- A word with room below the last bit only moves up. -/
theorem clock_ushiftRight {r : BitVec w} (h : r.getLsbD 0 = false) : clock p (r >>> 1) = r := by
  rw [clock, if_neg (by simp)]
  apply BitVec.eq_of_getLsbD_eq
  intro i hi
  rw [BitVec.getLsbD_shiftLeft, BitVec.getLsbD_ushiftRight]
  cases i with
  | zero => simp [h]
  | succ i => simp [hi, Nat.add_comm]

/-- Nothing is lost in a clock: what left at the top is still in the last bit. -/
theorem clock_injective (hodd : p.getLsbD 0 = true) : Function.Injective (clock p) := by
  intro r s h
  have hpos : 0 < w := BitVec.lt_of_getLsbD hodd
  have hlast (v : BitVec w) : (clock p v).getLsbD 0 = v.msb := by
    rw [clock]
    cases v.msb <;> simp [hodd]
  have hmsb : r.msb = s.msb := by rw [← hlast, ← hlast, h]
  have hshift : r <<< 1 = s <<< 1 := by
    rw [clock, clock, hmsb] at h
    split at h
    · exact (BitVec.xor_left_inj p).mp h
    · exact h
  apply BitVec.eq_of_getMsbD_eq
  intro i hi
  cases i with
  | zero => exact hmsb
  | succ i =>
      have hbit := congrArg (fun v => BitVec.getMsbD v i) hshift
      simpa [Nat.add_comm, show i < w by omega] using hbit

end Clocks

/-! ## Streams -/

section Streams

variable (p : BitVec w)

/-- Taking in a few bits is adding their word and clocking. -/
theorem feed_eq_iterate {bits : List Bool} (hfits : bits.length ≤ w) (r : BitVec w) :
    feed p r bits = (clock p)^[bits.length] (r ^^^ word bits) := by
  induction bits generalizing r with
  | nil => simp [word]
  | cons b bits ih =>
      have hroom : bits.length + 1 ≤ w := hfits
      have hclear : (word bits : BitVec w).getLsbD 0 = false := by
        rw [BitVec.getLsbD_eq_getMsbD, getMsbD_word _ (by omega)]
        simp [List.getElem?_eq_none (show bits.length ≤ w - 1 by omega)]
      rw [feed_cons, ih (by omega), List.length_cons, Function.iterate_succ_apply, shiftIn, word,
        ← BitVec.xor_assoc, clock_xor p _ (word bits >>> 1), clock_ushiftRight p hclear]

variable {p} (hodd : p.getLsbD 0 = true)
include hodd

/-- Registers that differ still differ after the same bits. -/
theorem feed_injective (bits : List Bool) : Function.Injective (feed p · bits) := by
  induction bits with
  | nil => exact Function.injective_id
  | cons b bits ih =>
      intro r s h
      have hclocked := clock_injective p hodd (ih h)
      exact (BitVec.xor_left_inj (top b)).mp hclocked

/-- A stretch of at most `w` bits cannot be exchanged for another one unnoticed. -/
theorem feed_stretch_ne {x y : List Bool} (hlen : x.length = y.length) (hfits : x.length ≤ w)
    (hne : x ≠ y) (r : BitVec w) (front back : List Bool) :
    feed p r (front ++ (x ++ back)) ≠ feed p r (front ++ (y ++ back)) := by
  intro h
  rw [feed_append, feed_append, feed_append, feed_append] at h
  have hstretch := feed_injective hodd back h
  have hfits' : y.length ≤ w := hlen ▸ hfits
  rw [feed_eq_iterate p hfits, feed_eq_iterate p hfits', ← hlen] at hstretch
  have hwords := (clock_injective p hodd).iterate x.length hstretch
  exact hne (word_injective hlen hfits ((BitVec.xor_right_inj _).mp hwords))

/-- Two streams that differ, but only within `w` consecutive bits, leave
different registers. -/
theorem feed_burst_ne {a b : List Bool} (hlen : a.length = b.length) (hne : a ≠ b) {start : Nat}
    (hburst : ∀ i, a[i]? ≠ b[i]? → start ≤ i ∧ i < start + w) (r : BitVec w) :
    feed p r a ≠ feed p r b := by
  have hsplit (l : List Bool) :
      l = l.take start ++ ((l.drop start).take w ++ l.drop (start + w)) := by
    rw [← List.drop_drop, List.take_append_drop, List.take_append_drop]
  have hsame (i : Nat) (hi : i < start ∨ start + w ≤ i) : a[i]? = b[i]? := by
    by_contra hdiffer
    have := hburst i hdiffer
    omega
  have hfront : a.take start = b.take start := by
    apply List.ext_getElem?
    intro i
    rw [List.getElem?_take, List.getElem?_take]
    split
    · exact hsame i (.inl ‹_›)
    · rfl
  have hback : a.drop (start + w) = b.drop (start + w) := by
    apply List.ext_getElem?
    intro i
    rw [List.getElem?_drop, List.getElem?_drop]
    exact hsame _ (.inr (Nat.le_add_right ..))
  have hstretch : (a.drop start).take w ≠ (b.drop start).take w := by
    intro h
    apply hne
    rw [hsplit a, hsplit b, hfront, hback, h]
  rw [hsplit a, hsplit b, hfront, hback]
  refine feed_stretch_ne hodd ?_ ?_ hstretch r _ _
  · simp [hlen]
  · exact List.length_take_le ..

end Streams

/-! ## The other bit order -/

section Mirror

/-- One clock of the register whose bits leave at the bottom. -/
def clockRight (q r : BitVec w) : BitVec w :=
  if r.getLsbD 0 then (r >>> 1) ^^^ q else r >>> 1

theorem reverse_xor (r s : BitVec w) : (r ^^^ s).reverse = r.reverse ^^^ s.reverse := by
  ext i hi
  simp [BitVec.getElem_reverse]

/-- The two orders are mirror images. -/
theorem reverse_clock (p r : BitVec w) :
    (clock p r).reverse = clockRight p.reverse r.reverse := by
  have hshift : (r <<< 1).reverse = r.reverse >>> 1 := by
    apply BitVec.eq_of_getLsbD_eq
    intro i hi
    rw [BitVec.getLsbD_reverse, BitVec.getLsbD_ushiftRight, BitVec.getLsbD_reverse,
      BitVec.getMsbD_shiftLeft, Nat.add_comm]
  rw [clock, clockRight, BitVec.getLsbD_reverse]
  change _ = if r.msb then _ else _
  split
  · rw [reverse_xor, hshift]
  · exact hshift

end Mirror

end ShiftRegister
