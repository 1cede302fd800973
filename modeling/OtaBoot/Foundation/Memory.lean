import Mathlib.Tactic.Common

/-!
# Addressed memory

A memory assigns a cell to every address. Ranges are read as lists, and lists
are stored over ranges; a store is described by the cells it changes and by the
frame it leaves alone.
-/

namespace Storage

/-- A cell at every address. -/
abbrev Memory (Cell : Type) := Nat → Cell

namespace Memory

variable {Cell : Type}

/-- The `count` cells that start at `addr`. -/
def read (m : Memory Cell) (addr count : Nat) : List Cell :=
  (List.range count).map fun i => m (addr + i)

/-- Overwrite the cells from `addr` on with those of a list. -/
def store (m : Memory Cell) (addr : Nat) (cells : List Cell) : Memory Cell :=
  fun a => if addr ≤ a then (cells[a - addr]?).getD (m a) else m a

/-- Overwrite `count` cells from `addr` on with one value. -/
def fill (m : Memory Cell) (addr count : Nat) (cell : Cell) : Memory Cell :=
  fun a => if addr ≤ a ∧ a < addr + count then cell else m a

/-- Two memories hold the same cells throughout a range. -/
def AgreeOn (addr count : Nat) (m m' : Memory Cell) : Prop :=
  ∀ a, addr ≤ a → a < addr + count → m a = m' a

/-! ## Reading -/

@[simp] theorem length_read (m : Memory Cell) (addr count : Nat) :
    (m.read addr count).length = count := by
  simp [read]

@[simp] theorem read_zero (m : Memory Cell) (addr : Nat) : m.read addr 0 = [] := rfl

@[simp] theorem getElem_read (m : Memory Cell) (addr count i : Nat)
    (h : i < (m.read addr count).length) : (m.read addr count)[i] = m (addr + i) := by
  simp [read]

/-- A range read in one go is its two parts read one after the other. -/
theorem read_add (m : Memory Cell) (addr front back : Nat) :
    m.read addr (front + back) = m.read addr front ++ m.read (addr + front) back := by
  simp only [read, List.range_add, List.map_append, List.map_map]
  congr 2
  funext i
  simp [Nat.add_assoc]

theorem AgreeOn.read_eq {addr count : Nat} {m m' : Memory Cell} (h : AgreeOn addr count m m') :
    m.read addr count = m'.read addr count := by
  apply List.map_congr_left
  intro i hi
  exact h _ (Nat.le_add_right _ _) (by have := List.mem_range.mp hi; omega)

theorem agreeOn_iff_read_eq {addr count : Nat} {m m' : Memory Cell} :
    AgreeOn addr count m m' ↔ m.read addr count = m'.read addr count := by
  refine ⟨AgreeOn.read_eq, fun h a hlo hhi => ?_⟩
  have hget := congrArg (fun cells => cells[a - addr]?) h
  have hlt : a - addr < count := by omega
  simpa [read, List.getElem?_map, List.getElem?_range hlt, Nat.add_sub_cancel' hlo] using hget

theorem AgreeOn.mono {addr count addr' count' : Nat} {m m' : Memory Cell}
    (h : AgreeOn addr count m m') (hlo : addr ≤ addr') (hhi : addr' + count' ≤ addr + count) :
    AgreeOn addr' count' m m' :=
  fun a ha ha' => h a (by omega) (by omega)

theorem AgreeOn.refl (addr count : Nat) (m : Memory Cell) : AgreeOn addr count m m :=
  fun _ _ _ => rfl

theorem AgreeOn.symm {addr count : Nat} {m m' : Memory Cell} (h : AgreeOn addr count m m') :
    AgreeOn addr count m' m :=
  fun a ha ha' => (h a ha ha').symm

theorem AgreeOn.trans {addr count : Nat} {m₁ m₂ m₃ : Memory Cell}
    (h : AgreeOn addr count m₁ m₂) (h' : AgreeOn addr count m₂ m₃) : AgreeOn addr count m₁ m₃ :=
  fun a ha ha' => (h a ha ha').trans (h' a ha ha')

/-! ## Storing -/

@[simp] theorem store_nil (m : Memory Cell) (addr : Nat) : m.store addr [] = m := by
  funext a
  simp [store]

theorem store_apply_of_mem (m : Memory Cell) (addr : Nat) (cells : List Cell) (i : Nat)
    (h : i < cells.length) : m.store addr cells (addr + i) = cells[i] := by
  simp [store, h]

theorem store_apply_of_lt (m : Memory Cell) (addr : Nat) (cells : List Cell) (a : Nat)
    (h : a < addr) : m.store addr cells a = m a := by
  simp [store, Nat.not_le.mpr h]

theorem store_apply_of_ge (m : Memory Cell) (addr : Nat) (cells : List Cell) (a : Nat)
    (h : addr + cells.length ≤ a) : m.store addr cells a = m a := by
  have hnone : cells[a - addr]? = none := List.getElem?_eq_none (by omega)
  simp [store, hnone]

theorem store_apply_outside (m : Memory Cell) (addr : Nat) (cells : List Cell) (a : Nat)
    (h : a < addr ∨ addr + cells.length ≤ a) : m.store addr cells a = m a := by
  rcases h with h | h
  · exact store_apply_of_lt m addr cells a h
  · exact store_apply_of_ge m addr cells a h

@[simp] theorem read_store_self (m : Memory Cell) (addr : Nat) (cells : List Cell) :
    (m.store addr cells).read addr cells.length = cells := by
  apply List.ext_getElem (by simp)
  intro i hi hi'
  rw [getElem_read, store_apply_of_mem m addr cells i hi']

/-- Storing what is there changes nothing, and nothing else does not. -/
theorem store_eq_self_iff (m : Memory Cell) (addr : Nat) (cells : List Cell) :
    m.store addr cells = m ↔ m.read addr cells.length = cells := by
  constructor
  · intro h
    conv_lhs => rw [← h]
    exact read_store_self _ _ _
  · intro h
    funext a
    by_cases hinside : addr ≤ a ∧ a < addr + cells.length
    · obtain ⟨i, rfl⟩ := Nat.exists_eq_add_of_le hinside.1
      have hi : i < cells.length := by omega
      have hcell := List.getElem_of_eq h.symm hi
      rw [store_apply_of_mem _ _ _ i hi, hcell, getElem_read]
    · exact store_apply_outside _ _ _ _ (by omega)

/-- Part of what was stored. -/
theorem read_store_within (m : Memory Cell) (addr : Nat) (cells : List Cell) {i count : Nat}
    (h : i + count ≤ cells.length) :
    (m.store addr cells).read (addr + i) count = (cells.drop i).take count := by
  apply List.ext_getElem (by simp; omega)
  intro j hj hj'
  have hlt : j < count := by simpa using hj
  rw [getElem_read, Nat.add_assoc, store_apply_of_mem m addr cells (i + j) (by omega)]
  simp

/-- A store leaves every disjoint range alone. -/
theorem store_agreeOn (m : Memory Cell) (addr : Nat) (cells : List Cell) {addr' count : Nat}
    (h : addr' + count ≤ addr ∨ addr + cells.length ≤ addr') :
    AgreeOn addr' count (m.store addr cells) m := by
  intro a ha ha'
  rcases h with h | h
  · exact store_apply_of_lt _ _ _ _ (by omega)
  · exact store_apply_of_ge _ _ _ _ (by omega)

/-- Storing two lists one after the other stores their concatenation. -/
theorem store_append (m : Memory Cell) (addr : Nat) (front back : List Cell) :
    m.store addr (front ++ back) = (m.store addr front).store (addr + front.length) back := by
  funext a
  rcases Nat.lt_or_ge a (addr + front.length) with hlt | hge
  · rw [store_apply_of_lt _ _ _ _ hlt]
    rcases Nat.lt_or_ge a addr with hlo | hlo
    · rw [store_apply_of_lt _ _ _ _ hlo, store_apply_of_lt _ _ _ _ hlo]
    · obtain ⟨i, rfl⟩ := Nat.exists_eq_add_of_le hlo
      have hi : i < front.length := by omega
      rw [store_apply_of_mem m addr front i hi,
        store_apply_of_mem m addr (front ++ back) i (by simp; omega),
        List.getElem_append_left hi]
  · obtain ⟨i, rfl⟩ := Nat.exists_eq_add_of_le hge
    rcases Nat.lt_or_ge i back.length with hi | hi
    · rw [store_apply_of_mem _ _ back i hi, Nat.add_assoc,
        store_apply_of_mem m addr (front ++ back) _ (by simp; omega)]
      simp
    · rw [store_apply_of_ge _ _ back _ (by omega), store_apply_of_ge _ _ front _ (by omega),
        store_apply_of_ge _ _ (front ++ back) _ (by simp; omega)]

/-! ## Filling -/

theorem fill_nothing (m : Memory Cell) (addr : Nat) (cell : Cell) : m.fill addr 0 cell = m := by
  funext a
  simp only [fill, ite_eq_right_iff]
  omega

theorem fill_apply_of_mem (m : Memory Cell) {addr count a : Nat} (cell : Cell)
    (hlo : addr ≤ a) (hhi : a < addr + count) : m.fill addr count cell a = cell := by
  simp [fill, hlo, hhi]

theorem fill_apply_outside (m : Memory Cell) {addr count a : Nat} (cell : Cell)
    (h : a < addr ∨ addr + count ≤ a) : m.fill addr count cell a = m a := by
  simp only [fill, ite_eq_right_iff]
  omega

theorem fill_agreeOn (m : Memory Cell) (addr count : Nat) (cell : Cell) {addr' count' : Nat}
    (h : addr' + count' ≤ addr ∨ addr + count ≤ addr') :
    AgreeOn addr' count' (m.fill addr count cell) m := by
  intro a ha ha'
  simp only [fill, ite_eq_right_iff]
  omega

/-- What is stored behind a filled range fills a longer one. -/
theorem store_fill (m : Memory Cell) (addr count more : Nat) (cell : Cell) :
    (m.fill addr count cell).store (addr + count) (List.replicate more cell) =
      m.fill addr (count + more) cell := by
  funext a
  rcases Nat.lt_or_ge a (addr + count) with hlow | hlow
  · rw [store_apply_of_lt _ _ _ _ hlow]
    simp only [fill, hlow, Nat.lt_of_lt_of_le hlow (Nat.add_le_add_left (Nat.le_add_right _ _) _)]
  obtain ⟨i, rfl⟩ := Nat.exists_eq_add_of_le hlow
  rcases Nat.lt_or_ge i more with hi | hi
  · rw [store_apply_of_mem _ _ _ i (by simpa using hi), List.getElem_replicate,
      fill_apply_of_mem m cell (by omega) (by omega)]
  · rw [store_apply_of_ge _ _ _ _ (by simpa using hi)]
    simp only [fill]
    split <;> split <;> first | rfl | omega

/-- Any part of a filled range reads as the fill value. -/
theorem read_fill (m : Memory Cell) {addr count addr' count' : Nat} (cell : Cell)
    (hlo : addr ≤ addr') (hhi : addr' + count' ≤ addr + count) :
    (m.fill addr count cell).read addr' count' = List.replicate count' cell := by
  apply List.ext_getElem (by simp)
  intro i hi hi'
  have : i < count' := by simpa using hi
  rw [getElem_read, List.getElem_replicate, fill_apply_of_mem m cell (by omega) (by omega)]

end Memory

end Storage
