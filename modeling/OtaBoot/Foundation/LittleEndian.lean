import Mathlib.Algebra.Group.Nat.Defs
import Mathlib.Tactic.Common

/-!
# Little-endian words

The bytes of 16- and 32-bit words, least significant byte first, and the words
that two or four such bytes make up.
-/

namespace LittleEndian

/-- The two bytes of a half-word. -/
def bytes16 (w : UInt16) : List UInt8 := [w.toUInt8, (w >>> 8).toUInt8]

/-- The four bytes of a word. -/
def bytes32 (w : UInt32) : List UInt8 :=
  [w.toUInt8, (w >>> 8).toUInt8, (w >>> 16).toUInt8, (w >>> 24).toUInt8]

/-- The half-word that two bytes make up. -/
def word16 (b₀ b₁ : UInt8) : UInt16 := b₀.toUInt16 ||| b₁.toUInt16 <<< 8

/-- The word that four bytes make up. -/
def word32 (b₀ b₁ b₂ b₃ : UInt8) : UInt32 :=
  b₀.toUInt32 ||| b₁.toUInt32 <<< 8 ||| b₂.toUInt32 <<< 16 ||| b₃.toUInt32 <<< 24

@[simp] theorem length_bytes16 (w : UInt16) : (bytes16 w).length = 2 := rfl

@[simp] theorem length_bytes32 (w : UInt32) : (bytes32 w).length = 4 := rfl

/-- Words with no bit in common add up to their union. -/
private theorem or_shiftLeft_eq_add {low : Nat} (high place : Nat) (h : low < 2 ^ place) :
    low ||| high <<< place = low + high * 2 ^ place := by
  rw [Nat.or_comm, ← Nat.shiftLeft_add_eq_or_of_lt h, Nat.shiftLeft_eq, Nat.add_comm]

theorem toNat_word16 (b₀ b₁ : UInt8) :
    (word16 b₀ b₁).toNat = b₀.toNat + b₁.toNat * 256 := by
  have h₀ : b₀.toNat < 2 ^ 8 := b₀.toNat_lt
  have h₁ : b₁.toNat < 2 ^ 8 := b₁.toNat_lt
  have hshift : b₁.toNat <<< 8 % 2 ^ 16 = b₁.toNat <<< 8 :=
    Nat.mod_eq_of_lt (by rw [Nat.shiftLeft_eq]; omega)
  simp only [word16, UInt16.toNat_or, UInt8.toNat_toUInt16, UInt16.toNat_shiftLeft,
    UInt16.reduceToNat, Nat.reduceMod, hshift]
  exact or_shiftLeft_eq_add _ 8 h₀

theorem toNat_word32 (b₀ b₁ b₂ b₃ : UInt8) :
    (word32 b₀ b₁ b₂ b₃).toNat =
      b₀.toNat + b₁.toNat * 256 + b₂.toNat * 65536 + b₃.toNat * 16777216 := by
  have h₀ : b₀.toNat < 2 ^ 8 := b₀.toNat_lt
  have h₁ : b₁.toNat < 2 ^ 8 := b₁.toNat_lt
  have h₂ : b₂.toNat < 2 ^ 8 := b₂.toNat_lt
  have h₃ : b₃.toNat < 2 ^ 8 := b₃.toNat_lt
  have hshift (b : UInt8) (place : Nat) (hplace : place ≤ 24) :
      b.toNat <<< place % 2 ^ 32 = b.toNat <<< place := by
    apply Nat.mod_eq_of_lt
    rw [Nat.shiftLeft_eq]
    calc b.toNat * 2 ^ place < 2 ^ 8 * 2 ^ place :=
          Nat.mul_lt_mul_of_pos_right b.toNat_lt (Nat.two_pow_pos place)
      _ ≤ 2 ^ 8 * 2 ^ 24 := Nat.mul_le_mul_left _ (Nat.pow_le_pow_right (by decide) hplace)
      _ = 2 ^ 32 := by decide
  simp only [word32, UInt32.toNat_or, UInt8.toNat_toUInt32, UInt32.toNat_shiftLeft,
    UInt32.reduceToNat, Nat.reduceMod]
  rw [hshift b₁ 8 (by decide), hshift b₂ 16 (by decide), hshift b₃ 24 (by decide),
    or_shiftLeft_eq_add _ 8 h₀, or_shiftLeft_eq_add _ 16 (by omega),
    or_shiftLeft_eq_add _ 24 (by omega)]
  rfl

/-- Splitting a word into bytes loses nothing. -/
@[simp] theorem word16_bytes (w : UInt16) : word16 w.toUInt8 (w >>> 8).toUInt8 = w := by
  have := w.toNat_lt
  apply UInt16.toNat_inj.mp
  simp only [toNat_word16, UInt16.toNat_toUInt8, UInt16.toNat_shiftRight, UInt16.reduceToNat,
    Nat.shiftRight_eq_div_pow, Nat.reduceMod, Nat.reducePow]
  omega

@[simp] theorem word32_bytes (w : UInt32) :
    word32 w.toUInt8 (w >>> 8).toUInt8 (w >>> 16).toUInt8 (w >>> 24).toUInt8 = w := by
  have := w.toNat_lt
  apply UInt32.toNat_inj.mp
  simp only [toNat_word32, UInt32.toNat_toUInt8, UInt32.toNat_shiftRight, UInt32.reduceToNat,
    Nat.shiftRight_eq_div_pow, Nat.reduceMod, Nat.reducePow]
  omega

/-- Any four bytes are the bytes of the word they make up. -/
@[simp] theorem bytes32_word32 (b₀ b₁ b₂ b₃ : UInt8) :
    bytes32 (word32 b₀ b₁ b₂ b₃) = [b₀, b₁, b₂, b₃] := by
  have h₀ := b₀.toNat_lt
  have h₁ := b₁.toNat_lt
  have h₂ := b₂.toNat_lt
  have h₃ := b₃.toNat_lt
  simp only [bytes32, List.cons.injEq, and_true, ← UInt8.toNat_inj, UInt32.toNat_toUInt8,
    UInt32.toNat_shiftRight, UInt32.reduceToNat, Nat.shiftRight_eq_div_pow, toNat_word32,
    Nat.reduceMod, Nat.reducePow]
  omega

@[simp] theorem bytes16_word16 (b₀ b₁ : UInt8) : bytes16 (word16 b₀ b₁) = [b₀, b₁] := by
  have h₀ := b₀.toNat_lt
  have h₁ := b₁.toNat_lt
  simp only [bytes16, List.cons.injEq, and_true, ← UInt8.toNat_inj, UInt16.toNat_toUInt8,
    UInt16.toNat_shiftRight, UInt16.reduceToNat, Nat.shiftRight_eq_div_pow, toNat_word16,
    Nat.reduceMod, Nat.reducePow]
  omega

end LittleEndian
