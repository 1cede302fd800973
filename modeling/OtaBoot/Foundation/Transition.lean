import Mathlib.Tactic.Common

/-!
# Runs of a machine driven by events

A machine is a step function; everything the environment decides is part of the
event. Runs are folds of the step over a list of events, and a guard says which
steps a run may take.
-/

namespace Transition

variable {State Event : Type} (step : State → Event → State)

/-- The state reached by a list of events. -/
def run (s : State) : List Event → State
  | [] => s
  | event :: events => run (step s event) events

/-- Every step of the run is taken from a state, and on an event, that the
guard allows. -/
def Guarded (guard : State → Event → Prop) (s : State) : List Event → Prop
  | [] => True
  | event :: events => guard s event ∧ Guarded guard (step s event) events

instance Guarded.decidable (guard : State → Event → Prop) [∀ s event, Decidable (guard s event)]
    (s : State) : (events : List Event) → Decidable (Guarded step guard s events)
  | [] => isTrue trivial
  | event :: events =>
      have := decidable guard (step s event) events
      inferInstanceAs (Decidable (guard s event ∧ Guarded step guard (step s event) events))

/-- The number of steps of a run that a test counts. -/
def count (test : State → Event → Bool) (s : State) : List Event → Nat
  | [] => 0
  | event :: events =>
      (if test s event then 1 else 0) + count test (step s event) events

variable {step} {guard guard' : State → Event → Prop}

@[simp] theorem run_nil (s : State) : run step s [] = s := rfl

@[simp] theorem run_cons (s : State) (event : Event) (events : List Event) :
    run step s (event :: events) = run step (step s event) events := rfl

theorem run_append (s : State) (front back : List Event) :
    run step s (front ++ back) = run step (run step s front) back := by
  induction front generalizing s with
  | nil => rfl
  | cons event front ih => exact ih (step s event)

theorem guarded_append (s : State) (front back : List Event) :
    Guarded step guard s (front ++ back) ↔
      Guarded step guard s front ∧ Guarded step guard (run step s front) back := by
  induction front generalizing s with
  | nil => simp [Guarded]
  | cons event front ih => simp [Guarded, ih, and_assoc]

theorem count_append (test : State → Event → Bool) (s : State) (front back : List Event) :
    count step test s (front ++ back) =
      count step test s front + count step test (run step s front) back := by
  induction front generalizing s with
  | nil => exact (Nat.zero_add _).symm
  | cons event front ih =>
      simp only [List.cons_append, count, run_cons, ih]
      omega

/-- Events that are never counted. -/
theorem count_eq_zero {test : State → Event → Bool} {events : List Event}
    (h : ∀ event ∈ events, ∀ s, test s event = false) (s : State) :
    count step test s events = 0 := by
  induction events generalizing s with
  | nil => rfl
  | cons event events ih =>
      rw [count, h event List.mem_cons_self, ih fun e he => h e (List.mem_cons_of_mem _ he)]
      rfl

theorem Guarded.mono (himp : ∀ s event, guard s event → guard' s event) {s : State}
    {events : List Event} (h : Guarded step guard s events) : Guarded step guard' s events := by
  induction events generalizing s with
  | nil => trivial
  | cons event events ih => exact ⟨himp _ _ h.1, ih h.2⟩

/-- A guard that does not look at the state. -/
theorem Guarded.of_forall {allowed : Event → Prop} {events : List Event}
    (h : ∀ event ∈ events, allowed event) (s : State) :
    Guarded step (fun _ event => allowed event) s events := by
  induction events generalizing s with
  | nil => trivial
  | cons event events ih =>
      exact ⟨h event List.mem_cons_self, ih (fun e he => h e (List.mem_cons_of_mem _ he)) _⟩

theorem Guarded.and {s : State} {events : List Event} (h : Guarded step guard s events)
    (h' : Guarded step guard' s events) :
    Guarded step (fun s event => guard s event ∧ guard' s event) s events := by
  induction events generalizing s with
  | nil => trivial
  | cons event events ih => exact ⟨⟨h.1, h'.1⟩, ih h.2 h'.2⟩

variable (step) in
/-- What every allowed step preserves holds of every state a run reaches. -/
theorem invariant_run (invariant : State → Prop)
    (hstep : ∀ s event, invariant s → guard s event → invariant (step s event))
    {s : State} {events : List Event} (hs : invariant s)
    (hguard : Guarded step guard s events) : invariant (run step s events) := by
  induction events generalizing s with
  | nil => exact hs
  | cons event events ih => exact ih (hstep s event hs hguard.1) hguard.2

/-- What follows from an invariant holds of every step. -/
theorem Guarded.of_invariant (invariant : State → Prop)
    (hstep : ∀ s event, invariant s → invariant (step s event))
    (hguard : ∀ s event, invariant s → guard s event) {s : State} (hs : invariant s)
    (events : List Event) : Guarded step guard s events := by
  induction events generalizing s with
  | nil => trivial
  | cons event events ih => exact ⟨hguard s event hs, ih (hstep s event hs)⟩

/-- What follows from an invariant that allowed steps preserve holds of every
allowed step. -/
theorem Guarded.of_guarded (invariant : State → Prop)
    (hstep : ∀ s event, invariant s → guard s event → invariant (step s event))
    (himp : ∀ s event, invariant s → guard s event → guard' s event) {s : State} (hs : invariant s)
    {events : List Event} (h : Guarded step guard s events) : Guarded step guard' s events := by
  induction events generalizing s with
  | nil => trivial
  | cons event events ih => exact ⟨himp s event hs h.1, ih (hstep s event hs h.1) h.2⟩

variable (step) in
/-- A quantity that grows by at least one with every counted step, and never
shrinks, bounds the count. -/
theorem count_le_of_step (invariant : State → Prop) (test : State → Event → Bool)
    (quantity : State → Nat)
    (hinv : ∀ s event, invariant s → guard s event → invariant (step s event))
    (hstep : ∀ s event, invariant s → guard s event →
      quantity s + (if test s event then 1 else 0) ≤ quantity (step s event))
    {s : State} {events : List Event} (hs : invariant s)
    (hguard : Guarded step guard s events) :
    quantity s + count step test s events ≤ quantity (run step s events) := by
  induction events generalizing s with
  | nil => exact Nat.le_refl _
  | cons event events ih =>
      have hone := hstep s event hs hguard.1
      have hrest := ih (hinv s event hs hguard.1) hguard.2
      simp only [count, run_cons]
      omega

variable (step) in
/-- Where every step that is not at the goal lowers a measure, the goal is reached
within as many events as the measure says, whatever they are. -/
theorem exists_run_of_measure (invariant goal : State → Prop) (measure : State → Nat)
    (hinv : ∀ s event, invariant s → invariant (step s event))
    (hzero : ∀ s, invariant s → measure s = 0 → goal s)
    (hstep : ∀ s event, invariant s → ¬ goal s → measure (step s event) < measure s)
    {s : State} {events : List Event} (hs : invariant s) (hlong : measure s ≤ events.length) :
    ∃ n ≤ measure s, goal (run step s (events.take n)) := by
  induction events generalizing s with
  | nil => exact ⟨0, Nat.zero_le _, hzero s hs (Nat.le_zero.mp hlong)⟩
  | cons event events ih =>
      by_cases hgoal : goal s
      · exact ⟨0, Nat.zero_le _, hgoal⟩
      · have hless := hstep s event hs hgoal
        rw [List.length_cons] at hlong
        obtain ⟨n, hn, hreached⟩ := ih (hinv s event hs) (by omega)
        exact ⟨n + 1, by omega, hreached⟩

/-! ## Runs of a relation -/

section Paths

variable {Label : Type} {rel : State → Label → State → Prop}

/-- A list of labels leads from one state to another. -/
def Path (rel : State → Label → State → Prop) (s : State) : List Label → State → Prop
  | [], s' => s = s'
  | label :: labels, s' => ∃ middle, rel s label middle ∧ Path rel middle labels s'

theorem Path.append {s middle s' : State} {front back : List Label}
    (hfront : Path rel s front middle) (hback : Path rel middle back s') :
    Path rel s (front ++ back) s' := by
  induction front generalizing s with
  | nil =>
      cases hfront
      exact hback
  | cons label front ih =>
      obtain ⟨next, hstep, hrest⟩ := hfront
      exact ⟨next, hstep, ih hrest⟩

theorem Path.single {s s' : State} {label : Label} (h : rel s label s') : Path rel s [label] s' :=
  ⟨s', h, rfl⟩

end Paths

end Transition
