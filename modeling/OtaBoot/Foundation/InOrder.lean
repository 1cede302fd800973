import Mathlib.Logic.Function.Iterate
import Mathlib.Tactic.Common

/-!
# Numbered items, taken in order

A receiver acknowledges items that carry numbers. It takes the item that carries
the successor of the last number, and takes an item that carries the last number
for a repetition. The number it starts from counts as the last one too, so that
an item carrying it is acknowledged and not taken. As long as the numbers do not
come round, what was taken is the first item of each other number.
-/

namespace InOrder

variable {α σ : Type}

/-! ## The first item of each number -/

section Firsts

variable [DecidableEq σ] (key : α → σ)

/-- The first item of each number, in order. -/
def firsts : List α → List α
  | [] => []
  | x :: xs => x :: (firsts xs).filter fun y => key y ≠ key x

/-- The items that do not carry a number. -/
def without (n : σ) (xs : List α) : List α := xs.filter fun x => key x ≠ n

variable {key} {xs : List α} {x : α} {n : σ}

theorem without_append_of_eq (xs : List α) (h : key x = n) :
    without key n (xs ++ [x]) = without key n xs := by
  simp [without, h]

theorem without_append_of_ne (xs : List α) (h : key x ≠ n) :
    without key n (xs ++ [x]) = without key n xs ++ [x] := by
  simp [without, h]

theorem mem_of_mem_firsts (h : x ∈ firsts key xs) : x ∈ xs := by
  induction xs with
  | nil => exact h
  | cons y ys ih =>
      rcases List.mem_cons.mp h with rfl | htail
      · exact List.mem_cons_self
      · exact List.mem_cons_of_mem y (ih (List.mem_filter.mp htail).1)

theorem firsts_append_of_ne (h : ∀ y ∈ xs, key y ≠ key x) :
    firsts key (xs ++ [x]) = firsts key xs ++ [x] := by
  induction xs with
  | nil => rfl
  | cons y ys ih =>
      rw [List.forall_mem_cons] at h
      simp [firsts, ih h.2, h.1.symm]

theorem firsts_append_of_mem (h : ∃ y ∈ xs, key y = key x) :
    firsts key (xs ++ [x]) = firsts key xs := by
  induction xs with
  | nil => simp at h
  | cons y ys ih =>
      by_cases hys : ∃ z ∈ ys, key z = key x
      · simp [firsts, ih hys]
      · -- `y` is the only one
        have hne : ∀ z ∈ ys, key z ≠ key x := fun z hz heq => hys ⟨z, hz, heq⟩
        have hy : key y = key x := by
          obtain ⟨z, hz, heq⟩ := h
          rcases List.mem_cons.mp hz with rfl | hz
          · exact heq
          · exact absurd heq (hne z hz)
        simp [firsts, firsts_append_of_ne hne, hy]

end Firsts

/-! ## What is taken of what is acknowledged -/

variable (key : α → σ) (succ : σ → σ) (start : σ)

/-- The number taken last. -/
def last (taken : List α) : σ := (taken.getLast?.map key).getD start

@[simp] theorem last_nil : last key start [] = start := rfl

@[simp] theorem last_append (taken : List α) (x : α) : last key start (taken ++ [x]) = key x := by
  simp [last]

theorem exists_of_last {taken : List α} (hne : taken ≠ []) :
    ∃ x ∈ taken, key x = last key start taken := by
  rcases List.eq_nil_or_concat taken with rfl | ⟨front, x, rfl⟩
  · exact absurd rfl hne
  · exact ⟨x, by simp, by simp⟩

/-- Which items were taken, of those that were acknowledged. -/
inductive Received : List α → List α → Prop
  | none : Received [] []
  | next {acked taken : List α} {x : α} (h : Received acked taken)
      (hkey : key x = succ (last key start taken)) : Received (acked ++ [x]) (taken ++ [x])
  | again {acked taken : List α} {x : α} (h : Received acked taken)
      (hkey : key x = last key start taken) : Received (acked ++ [x]) taken

namespace Received

variable {key succ start} {acked taken : List α} {x : α}

/-- The numbers taken are consecutive. -/
theorem last_eq (h : Received key succ start acked taken) :
    last key start taken = succ^[taken.length] start := by
  induction h with
  | none => rfl
  | next h hkey ih =>
      rw [last_append, hkey, ih, List.length_append, List.length_singleton,
        Function.iterate_succ_apply']
  | again h hkey ih => exact ih

theorem exists_iterate (h : Received key succ start acked taken) (hx : x ∈ acked) :
    ∃ i ≤ taken.length, key x = succ^[i] start := by
  induction h with
  | none => cases hx
  | @next acked taken y h hkey ih =>
      rw [List.length_append, List.length_singleton]
      rcases List.mem_append.mp hx with hx | hx
      · obtain ⟨i, hi, heq⟩ := ih hx
        exact ⟨i, Nat.le_succ_of_le hi, heq⟩
      · obtain rfl := List.mem_singleton.mp hx
        refine ⟨taken.length + 1, Nat.le_refl _, ?_⟩
        rw [hkey, h.last_eq, Function.iterate_succ_apply']
  | @again acked taken y h hkey ih =>
      rcases List.mem_append.mp hx with hx | hx
      · exact ih hx
      · obtain rfl := List.mem_singleton.mp hx
        exact ⟨taken.length, Nat.le_refl _, hkey.trans h.last_eq⟩

/-- What was taken, as long as the numbers do not come round. -/
theorem firsts_eq [DecidableEq σ] (h : Received key succ start acked taken)
    (hround : ∀ i j, i ≤ taken.length → j ≤ taken.length →
      succ^[i] start = succ^[j] start → i = j) :
    firsts key (without key start acked) = taken := by
  induction h with
  | none => rfl
  | @next acked taken x h hkey ih =>
      rw [List.length_append, List.length_singleton] at hround
      have hx : key x = succ^[taken.length + 1] start := by
        rw [hkey, h.last_eq, Function.iterate_succ_apply']
      have hnew : key x ≠ start := by
        intro heq
        have := hround (taken.length + 1) 0 (Nat.le_refl _) (Nat.zero_le _) (hx.symm.trans heq)
        omega
      have hfresh : ∀ y ∈ without key start acked, key y ≠ key x := by
        intro y hy heq
        obtain ⟨i, hi, hiter⟩ := h.exists_iterate (List.mem_filter.mp hy).1
        have := hround i (taken.length + 1) (by omega) (Nat.le_refl _)
          (hiter.symm.trans (heq.trans hx))
        omega
      rw [without_append_of_ne acked hnew, firsts_append_of_ne hfresh,
        ih fun i j hi hj => hround i j (by omega) (by omega)]
  | @again acked taken x h hkey ih =>
      specialize ih hround
      by_cases hx : key x = start
      · rw [without_append_of_eq acked hx, ih]
      · -- the item taken last has its number
        have hmem : ∃ y ∈ without key start acked, key y = key x := by
          have hne : taken ≠ [] := by
            rintro rfl
            exact hx hkey
          obtain ⟨y, hy, hlast⟩ := exists_of_last key start hne
          rw [← ih] at hy
          exact ⟨y, mem_of_mem_firsts hy, hlast.trans hkey.symm⟩
        rw [without_append_of_ne acked hx, firsts_append_of_mem hmem, ih]

end Received

end InOrder
