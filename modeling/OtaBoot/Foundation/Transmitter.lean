import Mathlib.Data.List.Basic
import Mathlib.Tactic.Common

/-!
# A transmitter with two registers

What is written goes into a holding register, from there into a shift register,
and from there onto the line. Two flags tell that there is room in the first,
and that both are empty.
-/

structure Transmitter (α : Type) where
  holding : Option α
  shift : Option α
  line : List α

namespace Transmitter

variable {α : Type}

/-- There is room for one more. -/
def ready (t : Transmitter α) : Bool := t.holding.isNone

/-- All that was written is on the line. -/
def idle (t : Transmitter α) : Bool := t.holding.isNone && t.shift.isNone

/-- Write the holding register, whatever it holds. -/
def put (t : Transmitter α) (symbol : α) : Transmitter α := { t with holding := some symbol }

/-- What is being shifted is out, or else the next one begins. -/
def advance (t : Transmitter α) : Transmitter α :=
  match t.shift with
  | some symbol => { t with shift := none, line := t.line ++ [symbol] }
  | none => { t with shift := t.holding, holding := none }

/-- What was written and not overwritten, in order. -/
def taken (t : Transmitter α) : List α := t.line ++ t.shift.toList ++ t.holding.toList

@[simp] theorem taken_advance (t : Transmitter α) : t.advance.taken = t.taken := by
  obtain ⟨holding, shift, line⟩ := t
  cases shift with
  | some symbol => simp [advance, taken]
  | none => cases holding <;> simp [advance, taken]

theorem taken_put {t : Transmitter α} (hready : t.ready = true) (symbol : α) :
    (t.put symbol).taken = t.taken ++ [symbol] := by
  have hempty : t.holding = none := Option.isNone_iff_eq_none.mp hready
  simp [taken, put, hempty]

/-- Nothing but room in the holding register is lost by waiting. -/
theorem ready_advance {t : Transmitter α} (hready : t.ready = true) : t.advance.ready = true := by
  obtain ⟨holding, shift, line⟩ := t
  cases shift with
  | some symbol => exact hready
  | none => rfl

theorem line_prefix_taken (t : Transmitter α) : t.line <+: t.taken :=
  ⟨t.shift.toList ++ t.holding.toList, (List.append_assoc _ _ _).symm⟩

theorem line_eq_taken {t : Transmitter α} (hidle : t.idle = true) : t.line = t.taken := by
  have hempty : t.holding = none ∧ t.shift = none := by simpa [idle] using hidle
  simp [taken, hempty.1, hempty.2]

end Transmitter
