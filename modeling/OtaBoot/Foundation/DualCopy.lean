import Mathlib.Tactic.Common

/-!
# A record kept in two copies

Two places each hold a copy of a record, or nothing usable. The usable copy
with the larger counter is authoritative, the first place winning a tie. A new
version goes to the place that does not hold the authoritative copy, so that
whatever becomes of that place before the new version is complete, the old one
is still found.
-/

namespace Storage

/-- One of the two places of a duplicated record. -/
inductive Side where
  | first
  | second
  deriving DecidableEq, Repr

namespace Side

/-- The other place. -/
def other : Side → Side
  | first => second
  | second => first

@[simp] theorem other_other (side : Side) : side.other.other = side := by cases side <;> rfl

theorem eq_or_eq_other (side side' : Side) : side' = side ∨ side' = side.other := by
  cases side <;> cases side' <;> simp [other]

end Side

namespace DualCopy

variable {Record : Type} (counter : Record → Nat)

/-- The place that holds the authoritative copy. -/
def holder (copies : Side → Option Record) : Option Side :=
  match copies .first, copies .second with
  | none, none => none
  | some _, none => some .first
  | none, some _ => some .second
  | some a, some b => if counter a < counter b then some .second else some .first

/-- The authoritative copy. -/
def authoritative (copies : Side → Option Record) : Option Record :=
  match copies .first, copies .second with
  | none, none => none
  | some a, none => some a
  | none, some b => some b
  | some a, some b => if counter a < counter b then some b else some a

/-- The place a new version goes to. -/
def target (copies : Side → Option Record) : Side :=
  match copies .first, copies .second with
  | none, none => .first
  | some _, none => .second
  | none, some _ => .first
  | some a, some b => if counter a < counter b then .first else .second

variable {counter} {copies copies' : Side → Option Record}

theorem authoritative_eq_bind_holder :
    authoritative counter copies = (holder counter copies).bind copies := by
  unfold authoritative holder
  cases hfirst : copies .first <;> cases hsecond : copies .second <;> simp [hfirst, hsecond]
  split <;> simp [hfirst, hsecond]

/-- The authoritative copy lies at its holder. -/
theorem copies_holder {side : Side} (h : holder counter copies = some side) :
    copies side = authoritative counter copies := by
  rw [authoritative_eq_bind_holder, h]
  rfl

theorem holder_isSome_iff :
    (holder counter copies).isSome ↔ (authoritative counter copies).isSome := by
  unfold authoritative holder
  cases copies .first <;> cases copies .second <;> simp
  split <;> simp

/-- A new version never overwrites the authoritative copy. -/
theorem holder_ne_target : holder counter copies ≠ some (target counter copies) := by
  unfold holder target
  cases copies .first <;> cases copies .second <;> simp
  split <;> simp

/-- The other place than the target holds the authoritative copy, if any. -/
theorem authoritative_eq_of_ne_target {side : Side} (h : side ≠ target counter copies) :
    copies side = authoritative counter copies := by
  cases hholder : holder counter copies with
  | none =>
      have hnone : authoritative counter copies = none := by
        have := mt holder_isSome_iff.mpr (by simp [hholder] : ¬ (holder counter copies).isSome)
        simpa using this
      rw [hnone]
      unfold holder at hholder
      revert hholder
      cases hfirst : copies .first <;> cases hsecond : copies .second <;>
        cases side <;> simp [hfirst, hsecond]
      all_goals split <;> simp
  | some place =>
      have hplace : place = side := by
        have hne : place ≠ target counter copies := fun heq => holder_ne_target (heq ▸ hholder)
        revert hne h
        cases place <;> cases side <;> cases target counter copies <;> simp
      exact hplace ▸ copies_holder hholder

section Update

variable (hframe : ∀ side, side ≠ target counter copies → copies' side = copies side)
include hframe

/-- The place left alone still holds what was authoritative. -/
theorem copies_of_ne_target (side : Side) (h : side ≠ target counter copies) :
    copies' side = authoritative counter copies := by
  rw [hframe side h, authoritative_eq_of_ne_target h]

/-- As long as the rewritten place holds nothing usable, the old version is
authoritative. -/
theorem authoritative_of_unusable (h : copies' (target counter copies) = none) :
    authoritative counter copies' = authoritative counter copies := by
  cases htarget : target counter copies with
  | first =>
      have hother := copies_of_ne_target hframe .second (by simp [htarget])
      rw [htarget] at h
      rw [← hother, authoritative, h]
      cases copies' .second <;> rfl
  | second =>
      have hother := copies_of_ne_target hframe .first (by simp [htarget])
      rw [htarget] at h
      rw [← hother, authoritative, h]
      cases copies' .first <;> rfl

/-- A complete new version with a larger counter takes over. -/
theorem authoritative_of_newer {new : Record} (h : copies' (target counter copies) = some new)
    (hnewer : ∀ old, authoritative counter copies = some old → counter old < counter new) :
    authoritative counter copies' = some new := by
  -- a strict inequality: the rule for ties does not matter
  cases htarget : target counter copies with
  | first =>
      have hother := copies_of_ne_target hframe .second (by simp [htarget])
      rw [htarget] at h
      rw [← hother] at hnewer
      rw [authoritative, h]
      cases hold : copies' .second with
      | none => rfl
      | some old => exact if_neg (Nat.lt_asymm (hnewer old hold))
  | second =>
      have hother := copies_of_ne_target hframe .first (by simp [htarget])
      rw [htarget] at h
      rw [← hother] at hnewer
      rw [authoritative, h]
      cases hold : copies' .first with
      | none => rfl
      | some old => exact if_pos (hnewer old hold)

/-- A version with a smaller counter does not take over. -/
theorem authoritative_of_older {new old : Record}
    (h : copies' (target counter copies) = some new)
    (hold : authoritative counter copies = some old) (holder : counter new < counter old) :
    authoritative counter copies' = some old := by
  cases htarget : target counter copies with
  | first =>
      have hother := copies_of_ne_target hframe .second (by simp [htarget])
      rw [htarget] at h
      rw [authoritative, h, hother, hold]
      exact if_pos holder
  | second =>
      have hother := copies_of_ne_target hframe .first (by simp [htarget])
      rw [htarget] at h
      rw [authoritative, h, hother, hold]
      exact if_neg (Nat.lt_asymm holder)

end Update

/-! ## Two notions of a usable copy -/

section Usable

/-- The copy at a place wins over another one at the other place. -/
def Outranks (counter : Record → Nat) (side : Side) (own other : Record) : Prop :=
  match side with
  | .first => counter other ≤ counter own
  | .second => counter other < counter own

variable {side : Side} {own other : Record}

/-- One of two copies wins. -/
theorem outranks_other_iff :
    Outranks counter side.other other own ↔ ¬ Outranks counter side own other := by
  cases side with
  | first => exact Nat.not_le.symm
  | second => exact Nat.not_lt.symm

theorem outranks_or (counter : Record → Nat) (side : Side) (own other : Record) :
    Outranks counter side own other ∨ Outranks counter side.other other own := by
  rw [outranks_other_iff]
  exact Classical.em _

theorem authoritative_of_outranks (hown : copies side = some own)
    (hother : copies side.other = some other) (h : Outranks counter side own other) :
    authoritative counter copies = some own := by
  cases side with
  | first =>
      change copies .second = _ at hother
      rw [authoritative, hown, hother]
      exact if_neg (Nat.not_lt.mpr h)
  | second =>
      change copies .first = _ at hother
      rw [authoritative, hown, hother]
      exact if_pos h

theorem authoritative_of_single (hown : copies side = some own)
    (hother : copies side.other = none) : authoritative counter copies = some own := by
  cases side with
  | first =>
      change copies .second = _ at hother
      rw [authoritative, hown, hother]
  | second =>
      change copies .first = _ at hother
      rw [authoritative, hown, hother]

theorem exists_of_authoritative (h : authoritative counter copies = some own) :
    ∃ side, copies side = some own := by
  cases hholder : holder counter copies with
  | none =>
      rw [authoritative_eq_bind_holder, hholder] at h
      cases h
  | some side => exact ⟨side, (copies_holder hholder).trans h⟩

theorem exists_authoritative (counter : Record → Nat) (hown : copies side = some own) :
    ∃ m, authoritative counter copies = some m := by
  cases hother : copies side.other with
  | none => exact ⟨own, authoritative_of_single hown hother⟩
  | some other =>
      rcases outranks_or counter side own other with h | h
      · exact ⟨own, authoritative_of_outranks hown hother h⟩
      · exact ⟨other, authoritative_of_outranks hother (by rwa [Side.other_other]) h⟩

/-- A laxer notion of usability selects the same copy exactly when every copy
that only it accepts is outranked by one that both accept. -/
theorem authoritative_eq_iff {good : Record → Prop}
    (hgood : ∀ side m, copies' side = some m ↔ copies side = some m ∧ good m) :
    authoritative counter copies = authoritative counter copies' ↔
      ∀ side bad, copies side = some bad → ¬ good bad →
        ∃ own, copies' side.other = some own ∧ Outranks counter side.other own bad := by
  have hnone {side : Side} {bad : Record} (hbad : copies side = some bad) (hnot : ¬ good bad) :
      copies' side = none := by
    cases h : copies' side with
    | none => rfl
    | some m =>
        obtain ⟨hm, hgood⟩ := (hgood side m).mp h
        rw [hbad] at hm
        cases hm
        exact absurd hgood hnot
  constructor
  · intro hsame side bad hbad hnot
    obtain ⟨m, hm⟩ := exists_authoritative counter hbad
    have hm' := hsame.symm.trans hm
    obtain ⟨side', hside'⟩ := exists_of_authoritative hm'
    rcases side.eq_or_eq_other side' with rfl | rfl
    · rw [hnone hbad hnot] at hside'
      cases hside'
    · refine ⟨m, hside', ?_⟩
      obtain ⟨hother, hgoodm⟩ := (hgood _ _).mp hside'
      rcases outranks_or counter side bad m with h | h
      · have hbadm := (authoritative_of_outranks hbad hother h).symm.trans hm
        cases hbadm
        exact absurd hgoodm hnot
      · exact h
  · intro h
    by_cases hall : ∀ side bad, copies side = some bad → good bad
    · have hcopies : copies' = copies := by
        funext side
        apply Option.ext
        intro m
        rw [hgood]
        exact and_iff_left_of_imp (hall side m)
      rw [hcopies]
    · push Not at hall
      obtain ⟨side, bad, hbad, hnot⟩ := hall
      obtain ⟨own, hown, houtranks⟩ := h side bad hbad hnot
      have hother := ((hgood _ _).mp hown).1
      rw [authoritative_of_outranks hother (by rwa [Side.other_other]) houtranks,
        authoritative_of_single hown (by rw [Side.other_other, hnone hbad hnot])]

end Usable

end DualCopy

end Storage
