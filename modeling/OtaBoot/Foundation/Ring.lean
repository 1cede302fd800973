import Mathlib.Data.List.Basic
import Mathlib.Data.Nat.ModEq
import Mathlib.Logic.Function.Basic
import OtaBoot.Foundation.Transition

/-!
# Rings of slots and bounded queues

A queue in a ring of slots: items enter at the head and leave at the tail, and
one slot stays free, so that equal indices mean an empty queue. Over it, the
bounded queue itself with its history: what entered, what left, what was dropped.
-/

namespace Ring

variable {α : Type}

/-- The slots from the tail up to the head hold the items, first in first. -/
structure Holds (size : Nat) (slots : Nat → α) (tail head : Nat) (items : List α) : Prop where
  tail_lt : tail < size
  head_eq : head = (tail + items.length) % size
  room : items.length < size
  slot_eq : ∀ i item, items[i]? = some item → slots ((tail + i) % size) = item

namespace Holds

variable {size : Nat} {slots : Nat → α} {tail head : Nat} {items : List α} {item : α}

theorem head_lt (h : Holds size slots tail head items) : head < size := by
  rw [h.head_eq]
  exact Nat.mod_lt _ (Nat.zero_lt_of_lt h.tail_lt)

/-- Only the slots of the ring count. -/
theorem congr {slots' : Nat → α} (h : Holds size slots tail head items)
    (heq : ∀ i, i < size → slots' i = slots i) : Holds size slots' tail head items := by
  refine ⟨h.tail_lt, h.head_eq, h.room, ?_⟩
  intro i item hitem
  rw [heq _ (Nat.mod_lt _ (Nat.zero_lt_of_lt h.tail_lt))]
  exact h.slot_eq i item hitem

/-- A ring that was just cleared. -/
theorem empty (hsize : 0 < size) (slots : Nat → α) : Holds size slots 0 0 [] where
  tail_lt := hsize
  head_eq := (Nat.zero_mod size).symm
  room := hsize
  slot_eq := by
    intro i item hitem
    cases hitem

/-- The number of items is the distance of the indices. -/
theorem length_eq (h : Holds size slots tail head items) :
    (head + size - tail) % size = items.length := by
  have htail := h.tail_lt
  have hroom := h.room
  rw [h.head_eq]
  rcases Nat.lt_or_ge (tail + items.length) size with hflat | hwrapped
  · rw [Nat.mod_eq_of_lt hflat, show tail + items.length + size - tail = items.length + size by
      omega, Nat.add_mod_right, Nat.mod_eq_of_lt hroom]
  · have hhead : (tail + items.length) % size = tail + items.length - size := by
      rw [Nat.mod_eq_sub_mod hwrapped, Nat.mod_eq_of_lt (by omega)]
    rw [hhead, show tail + items.length - size + size - tail = items.length by omega,
      Nat.mod_eq_of_lt hroom]

theorem head_eq_tail_iff (h : Holds size slots tail head items) : head = tail ↔ items = [] := by
  constructor
  · intro heq
    have hlength := h.length_eq
    rw [heq, Nat.add_sub_cancel_left, Nat.mod_self] at hlength
    exact List.length_eq_zero_iff.mp hlength.symm
  · intro hnil
    have hhead := h.head_eq
    rwa [hnil, List.length_nil, Nat.add_zero, Nat.mod_eq_of_lt h.tail_lt] at hhead

/-- The head cannot advance exactly when one slot is left. -/
theorem full_iff (h : Holds size slots tail head items) :
    (head + 1) % size = tail ↔ items.length = size - 1 := by
  have htail := h.tail_lt
  have hroom := h.room
  rw [h.head_eq, Nat.mod_add_mod]
  rcases Nat.lt_trichotomy (tail + items.length + 1) size with hflat | hedge | hwrapped
  · rw [Nat.mod_eq_of_lt hflat]
    omega
  · rw [hedge, Nat.mod_self]
    omega
  · rw [Nat.mod_eq_sub_mod (Nat.le_of_lt hwrapped), Nat.mod_eq_of_lt (by omega)]
    omega

/-- An item is stored at the head, and then the head advances. -/
theorem push (h : Holds size slots tail head items) (hroom : (head + 1) % size ≠ tail)
    (item : α) :
    Holds size (Function.update slots head item) tail ((head + 1) % size) (items ++ [item]) := by
  have htail := h.tail_lt
  have hlength := h.room
  have hfree : items.length + 1 < size := by
    have := mt h.full_iff.mpr hroom
    omega
  refine ⟨htail, ?_, by simpa using hfree, ?_⟩
  · rw [h.head_eq, Nat.mod_add_mod, List.length_append, List.length_singleton, Nat.add_assoc]
  · intro i other hother
    rcases Nat.lt_trichotomy i items.length with hold | hnew | hbeyond
    · -- an item that was there keeps its slot
      have hne : (tail + i) % size ≠ head := by
        intro heq
        have hsame : i ≡ items.length [MOD size] :=
          Nat.ModEq.add_left_cancel' tail (heq.trans h.head_eq)
        unfold Nat.ModEq at hsame
        rw [Nat.mod_eq_of_lt (Nat.lt_trans hold hlength), Nat.mod_eq_of_lt hlength] at hsame
        omega
      rw [Function.update_of_ne hne]
      rw [List.getElem?_append_left hold] at hother
      exact h.slot_eq i other hother
    · subst hnew
      rw [List.getElem?_concat_length] at hother
      rw [← h.head_eq, Function.update_self]
      exact Option.some.inj hother
    · have hnone : (items ++ [item])[i]? = none :=
        List.getElem?_eq_none (by rw [List.length_append]; exact hbeyond)
      rw [hnone] at hother
      cases hother

/-- The slot at the tail holds the first item. -/
theorem slot_tail (h : Holds size slots tail head (item :: items)) : slots tail = item := by
  have hfirst := h.slot_eq 0 item rfl
  rwa [Nat.add_zero, Nat.mod_eq_of_lt h.tail_lt] at hfirst

/-- The tail advances over some items, and they are gone. -/
theorem drop (h : Holds size slots tail head items) {count : Nat}
    (hcount : count ≤ items.length) :
    Holds size slots ((tail + count) % size) head (items.drop count) := by
  refine ⟨Nat.mod_lt _ (Nat.zero_lt_of_lt h.tail_lt), ?_, ?_, ?_⟩
  · rw [h.head_eq, Nat.mod_add_mod, List.length_drop, Nat.add_assoc,
      Nat.add_sub_of_le hcount]
  · rw [List.length_drop]
    exact Nat.lt_of_le_of_lt (Nat.sub_le _ _) h.room
  · intro i item hitem
    rw [List.getElem?_drop] at hitem
    rw [Nat.mod_add_mod, Nat.add_assoc]
    exact h.slot_eq (count + i) item hitem

end Holds

end Ring

/-! ## Bounded queues -/

/-- A queue of at most `capacity` items with its history: the items that entered
are those that left, and then those stored. -/
structure BoundedQueue (α : Type) (capacity : Nat) where
  entered : List α
  left : List α
  stored : List α
  entered_eq : entered = left ++ stored
  bounded : stored.length ≤ capacity
  /-- The items that found the queue full. -/
  dropped : List α

namespace BoundedQueue

variable {α : Type} {capacity : Nat} {item : α} {rest gone : List α}

/-- A queue that nothing has entered. -/
def fresh : BoundedQueue α capacity := ⟨[], [], [], rfl, Nat.zero_le _, []⟩

/-- An item enters. -/
def accept (queue : BoundedQueue α capacity) (item : α) (h : queue.stored.length < capacity) :
    BoundedQueue α capacity :=
  { queue with
    entered := queue.entered ++ [item]
    stored := queue.stored ++ [item]
    entered_eq := by rw [queue.entered_eq, List.append_assoc]
    bounded := by
      rw [List.length_append]
      exact h }

/-- An item is dropped. -/
def drop (queue : BoundedQueue α capacity) (item : α) : BoundedQueue α capacity :=
  { queue with dropped := queue.dropped ++ [item] }

/-- The first items leave. -/
def take (queue : BoundedQueue α capacity) (count : Nat) : BoundedQueue α capacity :=
  { queue with
    left := queue.left ++ queue.stored.take count
    stored := queue.stored.drop count
    entered_eq := by rw [queue.entered_eq, List.append_assoc, List.take_append_drop]
    bounded := by
      rw [List.length_drop]
      exact Nat.le_trans (Nat.sub_le _ _) queue.bounded }

/-- Items may have left since, and others entered. -/
structure Since (before : BoundedQueue α capacity) (gone : List α)
    (after : BoundedQueue α capacity) : Prop where
  left : after.left = before.left ++ gone
  entered : before.entered <+: after.entered

namespace Since

variable {before queue after : BoundedQueue α capacity}

theorem refl (queue : BoundedQueue α capacity) : Since queue [] queue :=
  ⟨(List.append_nil _).symm, List.prefix_rfl⟩

theorem trans {more : List α} (h : Since before gone queue) (h' : Since queue more after) :
    Since before (gone ++ more) after :=
  ⟨by rw [h'.left, h.left, List.append_assoc], h.entered.trans h'.entered⟩

/-- What entered since went behind what was stored, and what left was in front. -/
theorem balance (h : Since before gone after) {arrived : List α}
    (harrived : after.entered = before.entered ++ arrived) :
    before.stored ++ arrived = gone ++ after.stored := by
  rw [after.entered_eq, before.entered_eq, h.left, List.append_assoc, List.append_assoc] at harrived
  exact (List.append_cancel_left harrived).symm

/-- What was stored is in front of what left, and of what is stored. -/
theorem stored_prefix (h : Since before gone after) : before.stored <+: gone ++ after.stored := by
  obtain ⟨arrived, harrived⟩ := h.entered
  exact ⟨arrived, h.balance harrived.symm⟩

theorem take (h : Since before gone queue) (count : Nat) :
    Since before (gone ++ queue.stored.take count) (queue.take count) :=
  h.trans ⟨rfl, List.prefix_rfl⟩

end Since

end BoundedQueue
