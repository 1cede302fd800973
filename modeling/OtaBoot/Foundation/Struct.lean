import Mathlib.Algebra.BigOperators.Group.List.Basic
import OtaBoot.Foundation.LittleEndian

/-!
# Packed structures

Little-endian formats made of unsigned integers and byte strings, without
padding: packing refuses integers that do not fit their field, unpacking refuses
bytes of another length than the format's.
-/

namespace Struct

open LittleEndian

/-- A field of a format. -/
inductive Field where
  | uint (width : Nat)
  | str (length : Nat)
  deriving DecidableEq, Repr

/-- What a field holds. -/
inductive Value where
  | int (n : Int)
  | bytes (cells : List UInt8)
  deriving DecidableEq, Repr

/-- The bytes of a number, the lowest first. -/
def numberBytes (width n : Nat) : List UInt8 :=
  (List.range width).map fun i => UInt8.ofNat (n >>> (8 * i))

/-- The number that bytes make up. -/
def bytesNumber (cells : List UInt8) : Nat := cells.foldr (fun b n => b.toNat + 256 * n) 0

def Field.size : Field → Nat
  | .uint width => width
  | .str length => length

def Field.pack : Field → Value → Option (List UInt8)
  | .uint width, .int n =>
      if 0 ≤ n ∧ n < 256 ^ width then some (numberBytes width n.toNat) else none
  -- a string is cut, or filled up with zeros
  | .str length, .bytes cells => some ((cells ++ List.replicate length 0).take length)
  | .uint _, .bytes _ | .str _, .int _ => none

def Field.unpack : Field → List UInt8 → Value
  | .uint _, cells => .int (bytesNumber cells)
  | .str _, cells => .bytes cells

/-- There are as many values as fields, and each can be packed. -/
def pack : List Field → List Value → Option (List UInt8)
  | [], [] => some []
  | field :: fmt, value :: values => do
      let front ← field.pack value
      let back ← pack fmt values
      pure (front ++ back)
  | [], _ :: _ | _ :: _, [] => none

/-- There are exactly as many bytes as the fields take. -/
def unpack : List Field → List UInt8 → Option (List Value)
  | [], [] => some []
  | [], _ :: _ => none
  | field :: fmt, cells =>
      if cells.length < field.size then none
      else do
        let values ← unpack fmt (cells.drop field.size)
        pure (field.unpack (cells.take field.size) :: values)

/-! ## Numbers -/

section Numbers

@[simp] theorem length_numberBytes (width n : Nat) : (numberBytes width n).length = width := by
  simp [numberBytes]

theorem numberBytes_succ (width n : Nat) :
    numberBytes (width + 1) n = UInt8.ofNat n :: numberBytes width (n / 256) := by
  rw [numberBytes, List.range_succ_eq_map, List.map_cons, List.map_map]
  refine congrArg₂ _ rfl (List.map_congr_left fun i _ => ?_)
  rw [Function.comp_apply, Nat.mul_succ, Nat.add_comm, Nat.shiftRight_add,
    Nat.shiftRight_eq_div_pow n 8]

/-- A number that fits is read back. -/
theorem bytesNumber_numberBytes {width n : Nat} (h : n < 256 ^ width) :
    bytesNumber (numberBytes width n) = n := by
  induction width generalizing n with
  | zero =>
      rw [Nat.pow_zero] at h
      exact (Nat.lt_one_iff.mp h).symm
  | succ width ih =>
      rw [numberBytes_succ, bytesNumber, List.foldr_cons]
      change _ + 256 * bytesNumber (numberBytes width (n / 256)) = n
      rw [ih (Nat.div_lt_of_lt_mul (by rwa [Nat.mul_comm, ← Nat.pow_succ])), UInt8.toNat_ofNat']
      omega

/-- A word is packed as it lies in memory. -/
@[simp] theorem pack_word (w : UInt32) : (Field.uint 4).pack (.int w.toNat) = some (bytes32 w) := by
  have hlt := w.toNat_lt
  have hrange : (0 : Int) ≤ w.toNat ∧ (w.toNat : Int) < 256 ^ 4 := by omega
  rw [Field.pack, if_pos hrange, Int.toNat_natCast]
  refine congrArg some ?_
  simp only [bytes32, numberBytes, List.range, List.range.loop, List.map_cons, List.map_nil,
    List.cons.injEq, and_true, ← UInt8.toNat_inj]
  simp

@[simp] theorem pack_byte (b : UInt8) : (Field.uint 1).pack (.int b.toNat) = some [b] := by
  have hlt := b.toNat_lt
  have hrange : (0 : Int) ≤ b.toNat ∧ (b.toNat : Int) < 256 ^ 1 := by omega
  rw [Field.pack, if_pos hrange]
  simp [numberBytes]

end Numbers

/-! ## Round trips -/

section RoundTrips

variable {field : Field} {value : Value} {cells : List UInt8}

/-- A string that fills its field. -/
def Value.Exact : Value → Field → Prop
  | .bytes cells, .str length => cells.length = length
  | _, _ => True

theorem Field.length_pack (h : field.pack value = some cells) : cells.length = field.size := by
  cases field <;> cases value
  case uint.int width n =>
      rw [Field.pack] at h
      split at h
      · cases h
        exact length_numberBytes _ _
      · cases h
  case str.bytes length content =>
      cases h
      simp [Field.size]
  all_goals cases h

theorem Field.unpack_pack (h : field.pack value = some cells) (hexact : value.Exact field) :
    field.unpack cells = value := by
  cases field <;> cases value
  case uint.int width n =>
      rw [Field.pack] at h
      split at h
      next hrange =>
        cases h
        have hfits : n.toNat < 256 ^ width := by
          rw [Int.toNat_lt hrange.1, Int.natCast_pow]
          exact hrange.2
        rw [Field.unpack, bytesNumber_numberBytes hfits, Int.toNat_of_nonneg hrange.1]
      next => cases h
  case str.bytes length content =>
      cases h
      change content.length = length at hexact
      rw [Field.unpack, ← hexact, List.take_left]
  all_goals cases h

/-- What was packed is unpacked. -/
theorem unpack_pack {fmt : List Field} {values : List Value} (h : pack fmt values = some cells)
    (hexact : List.Forall₂ Value.Exact values fmt) : unpack fmt cells = some values := by
  induction hexact generalizing cells with
  | nil =>
      cases h
      rfl
  | @cons value field values fmt hvalue _ ih =>
      rw [pack] at h
      cases hfront : field.pack value with
      | none => simp [hfront] at h
      | some front =>
          cases hback : pack fmt values with
          | none => simp [hfront, hback] at h
          | some back =>
              simp only [hfront, hback, Option.bind_eq_bind, Option.bind_some, Option.pure_def,
                Option.some.injEq] at h
              subst h
              have hlen := Field.length_pack hfront
              rw [unpack, if_neg (by rw [List.length_append]; omega), ← hlen, List.drop_left,
                List.take_left, ih hback, Field.unpack_pack hfront hvalue]
              rfl

/-- What was packed fits field by field. -/
theorem forall_pack {fmt : List Field} {values : List Value} (h : pack fmt values = some cells) :
    List.Forall₂ (fun field value => (Field.pack field value).isSome) fmt values := by
  induction fmt generalizing values cells with
  | nil =>
      cases values with
      | nil => exact .nil
      | cons value values => cases h
  | cons field fmt ih =>
      cases values with
      | nil => cases h
      | cons value values =>
          rw [pack] at h
          cases hfront : field.pack value with
          | none => simp [hfront] at h
          | some front =>
              cases hback : pack fmt values with
              | none => simp [hfront, hback] at h
              | some back => exact .cons (by rw [hfront]; rfl) (ih hback)

end RoundTrips

end Struct
