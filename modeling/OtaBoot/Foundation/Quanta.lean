import Mathlib.Algebra.Order.Floor.Semifield

/-!
# Counting in quanta

A demand is measured by the whole quanta that it holds. Their number is the only
one that comes to less than a quantum below the demand; in quanta twice as large
it is half of it.
-/

namespace Quanta

section Field

variable {K : Type*} [Field K] [LinearOrder K] [IsStrictOrderedRing K] [FloorSemiring K]

/-- The number of quanta that a demand holds is the one that reaches to within a
quantum of it. -/
theorem within_iff {quantum demand : K} (hquantum : 0 < quantum) (hdemand : 0 ≤ demand)
    (count : ℕ) :
    count * quantum ≤ demand ∧ demand - quantum < count * quantum ↔
      ⌊demand / quantum⌋₊ = count := by
  rw [Nat.floor_eq_iff (div_nonneg hdemand hquantum.le), le_div_iff₀ hquantum,
    div_lt_iff₀ hquantum, add_mul, one_mul, sub_lt_iff_lt_add]

/-- A demand in whole units, in quanta of so many subunits, `scale` of which make a
unit. -/
theorem floor_div_subunits (demand subunits scale : ℕ) :
    ⌊(demand : K) / ((subunits : K) / scale)⌋₊ = demand * scale / subunits := by
  rw [div_div_eq_mul_div, ← Nat.cast_mul, Nat.floor_div_eq_div]

end Field

theorem div_double (demand quantum : ℕ) : demand / (quantum * 2) = demand / quantum / 2 :=
  (Nat.div_div_eq_div_mul demand quantum 2).symm

end Quanta
