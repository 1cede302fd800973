import OtaBoot.Foundation.Faulty

/-!
# Sequences of operations

A program that issues so many operations one after the other, and gives up at the
first that is not reported as done, comes to one of four ends. Which one depends
on the faults alone, and so do what it returns and how many operations take effect.
-/

namespace Storage

/-- The end of a sequence of operations. -/
inductive Fate
  /-- Every operation has run. -/
  | done
  /-- Every operation took effect, and the last one reported an error. -/
  | unreported
  /-- An error was reported before everything had taken effect. -/
  | failed
  /-- Power was lost. -/
  | cut
  deriving DecidableEq, Repr

/-- What faults do to so many operations. -/
def fate : Nat → List Fault → Fate
  | 0, _ => .done
  | count + 1, faults =>
      match faults.head?.getD .none with
      | .none => fate count faults.tail
      | .lost => .failed
      | .late => if count = 0 then .unreported else .failed
      | .cutBefore | .cutAfter => .cut

@[simp] theorem fate_zero (faults : List Fault) : fate 0 faults = .done := rfl

/-- One sequence after the other. -/
theorem fate_add (count more : Nat) (faults : List Fault) :
    fate (count + more) faults =
      match fate count faults with
      | .done => fate more (faults.drop count)
      | .unreported => if more = 0 then .unreported else .failed
      | .failed => .failed
      | .cut => .cut := by
  induction count generalizing faults with
  | zero => rw [Nat.zero_add, fate_zero, List.drop_zero]
  | succ count ih =>
      rw [Nat.succ_add, fate, fate]
      cases hfault : faults.head?.getD .none with
      | none =>
          dsimp only
          rw [ih, List.drop_tail]
      | lost | cutBefore | cutAfter => rfl
      | late =>
          dsimp only
          by_cases hcount : count = 0
          · subst hcount
            rw [Nat.zero_add]
            rfl
          · rw [if_neg (by omega), if_neg hcount]

/-- How many of so many operations take effect. -/
def effects : Nat → List Fault → Nat
  | 0, _ => 0
  | count + 1, faults =>
      match faults.head?.getD .none with
      | .none => effects count faults.tail + 1
      | .late | .cutAfter => 1
      | .lost | .cutBefore => 0

@[simp] theorem effects_zero (faults : List Fault) : effects 0 faults = 0 := rfl

/-- Operations of a second sequence take effect once the first is done. -/
theorem effects_add (count more : Nat) (faults : List Fault) :
    effects (count + more) faults =
      match fate count faults with
      | .done => count + effects more (faults.drop count)
      | .unreported | .failed | .cut => effects count faults := by
  induction count generalizing faults with
  | zero =>
      rw [fate_zero, Nat.zero_add, List.drop_zero]
      exact (Nat.zero_add _).symm
  | succ count ih =>
      rw [Nat.succ_add, effects, effects, fate]
      cases hfault : faults.head?.getD .none with
      | none =>
          dsimp only
          rw [ih, List.drop_tail]
          cases fate count faults.tail with
          | done => exact Nat.add_right_comm _ _ _
          | unreported | failed | cut => rfl
      | late =>
          dsimp only
          by_cases hcount : count = 0
          · rw [if_pos hcount]
          · rw [if_neg hcount]
      | lost | cutBefore | cutAfter => rfl

/-- Everything takes effect in a sequence that is done, and in one that was not
reported; in one that failed something is missing. -/
theorem effects_of_fate (count : Nat) (faults : List Fault) :
    match fate count faults with
    | .done | .unreported => effects count faults = count
    | .failed => effects count faults < count
    | .cut => effects count faults ≤ count := by
  induction count generalizing faults with
  | zero => rfl
  | succ count ih =>
      rw [fate, effects]
      cases hfault : faults.head?.getD .none with
      | none =>
          have hrest := ih faults.tail
          dsimp only
          cases hfate : fate count faults.tail with
          | done | unreported =>
              rw [hfate] at hrest
              exact congrArg (· + 1) hrest
          | failed =>
              rw [hfate] at hrest
              exact Nat.succ_lt_succ hrest
          | cut =>
              rw [hfate] at hrest
              exact Nat.succ_le_succ hrest
      | late =>
          dsimp only
          by_cases hcount : count = 0
          · rw [if_pos hcount, hcount]
          · rw [if_neg hcount]
            exact Nat.succ_lt_succ (Nat.pos_of_ne_zero hcount)
      | lost => exact Nat.succ_pos count
      | cutBefore => exact Nat.zero_le _
      | cutAfter => exact Nat.succ_le_succ (Nat.zero_le count)

theorem effects_le (count : Nat) (faults : List Fault) : effects count faults ≤ count := by
  have hall := effects_of_fate count faults
  cases hfate : fate count faults with
  | done | unreported =>
      rw [hfate] at hall
      exact Nat.le_of_eq hall
  | failed =>
      rw [hfate] at hall
      exact Nat.le_of_lt hall
  | cut =>
      rw [hfate] at hall
      exact hall

/-- The last fault after so many operations that nothing disturbs. -/
theorem fate_replicate (done more : Nat) (fault : Fault) :
    fate (done + more) (List.replicate done .none ++ [fault]) = fate more [fault] := by
  induction done with
  | zero => rw [Nat.zero_add, List.replicate_zero, List.nil_append]
  | succ done ih =>
      rw [Nat.succ_add, List.replicate_succ, List.cons_append, fate]
      exact ih

theorem effects_replicate (done more : Nat) (fault : Fault) :
    effects (done + more) (List.replicate done .none ++ [fault]) =
      done + effects more [fault] := by
  induction done with
  | zero => rw [Nat.zero_add, List.replicate_zero, List.nil_append, Nat.zero_add]
  | succ done ih =>
      rw [Nat.succ_add, List.replicate_succ, List.cons_append, effects]
      simp only [List.head?_cons, Option.getD_some, List.tail_cons, ih]
      exact Nat.add_right_comm _ _ _

namespace Faulty

variable {State Call α β : Type}

/-- A program that takes the state along a path, one operation after the other. It
returns a good value when all of them have run and a bad one after an error;
where it is stopped, the state is as far on as operations have taken effect. -/
def Fares (x : Faulty State Call α) (count : Nat) (path : Nat → State) (good bad : α → Prop) :
    Prop :=
  ∀ (faults : List Fault) (calls : List (State × Call)),
    match fate count faults with
    | .done => ∃ a calls', x.run ⟨path 0, faults, calls⟩ =
        (.done a, ⟨path count, faults.drop count, calls'⟩) ∧ good a
    | .unreported | .failed => ∃ a w, x.run ⟨path 0, faults, calls⟩ = (.done a, w) ∧ bad a ∧
        w.state = path (effects count faults)
    | .cut => ∃ w, x.run ⟨path 0, faults, calls⟩ = (.cut, w) ∧
        w.state = path (effects count faults)

namespace Fares

variable {x : Faulty State Call α} {f : α → Faulty State Call β} {count : Nat}
  {path : Nat → State} {good bad : α → Prop} {good' bad' : β → Prop}

theorem pure {a : α} (h : good a) : Fares (pure a : Faulty State Call α) 0 path good bad :=
  fun _ calls => ⟨a, calls, rfl, h⟩

/-- One operation that the device does not refuse. -/
theorem perform {op : State → Option State} (h : op (path 0) = some (path 1)) :
    Fares (perform op : Faulty State Call Bool) 1 path (· = true) (· = false) := by
  intro faults calls
  rw [fate, effects]
  cases hfault : faults.head?.getD .none with
  | none => exact ⟨true, calls, by simp [run, Faulty.perform, hfault, h], rfl⟩
  | lost =>
      exact ⟨false, ⟨path 0, faults.tail, calls⟩, by simp [run, Faulty.perform, hfault], rfl, rfl⟩
  | late =>
      exact ⟨false, ⟨path 1, faults.tail, calls⟩, by simp [run, Faulty.perform, hfault, h], rfl,
        rfl⟩
  | cutBefore =>
      exact ⟨⟨path 0, faults.tail, calls⟩, by simp [run, Faulty.perform, hfault], rfl⟩
  | cutAfter =>
      exact ⟨⟨path 1, faults.tail, calls⟩, by simp [run, Faulty.perform, hfault, h], rfl⟩

/-- A program that looks at the state first. -/
theorem read {f : State → Faulty State Call α} {s : State} (hs : path 0 = s)
    (h : Fares (f s) count path good bad) : Fares (read >>= f) count path good bad := by
  subst hs
  exact h

theorem note {call : Call} {f : Unit → Faulty State Call α}
    (h : Fares (f ()) count path good bad) : Fares (note call >>= f) count path good bad :=
  fun faults calls => h faults (calls ++ [(path 0, call)])

/-- One program after the other, which is not reached when the first gives up. -/
theorem bind (more : Nat) (hx : Fares x count path good bad)
    (hgood : ∀ a, good a → Fares (f a) more (fun step => path (count + step)) good' bad')
    (hbad : ∀ a, bad a → ∃ b, f a = Pure.pure b ∧ bad' b) :
    Fares (x >>= f) (count + more) path good' bad' := by
  have hstop {faults : List Fault} {calls : List (State × Call)}
      (hfirst : ∃ a w, x.run ⟨path 0, faults, calls⟩ = (.done a, w) ∧ bad a ∧
        w.state = path (effects count faults)) :
      ∃ b w, (x >>= f).run ⟨path 0, faults, calls⟩ = (.done b, w) ∧ bad' b ∧
        w.state = path (effects count faults) := by
    obtain ⟨a, w, hrun, ha, hstate⟩ := hfirst
    obtain ⟨b, hb, hnot⟩ := hbad a ha
    refine ⟨b, w, ?_, hnot, hstate⟩
    rw [run_bind_done hrun, hb]
    rfl
  intro faults calls
  have hfirst := hx faults calls
  rw [fate_add, effects_add]
  cases hfate : fate count faults with
  | done =>
      rw [hfate] at hfirst
      obtain ⟨a, calls', hrun, ha⟩ := hfirst
      have hsecond := hgood a ha (faults.drop count) calls'
      rw [run_bind_done hrun, ← List.drop_drop]
      exact hsecond
  | unreported =>
      rw [hfate] at hfirst
      dsimp only
      by_cases hmore : more = 0
      · rw [if_pos hmore]
        exact hstop hfirst
      · rw [if_neg hmore]
        exact hstop hfirst
  | failed =>
      rw [hfate] at hfirst
      exact hstop hfirst
  | cut =>
      rw [hfate] at hfirst
      obtain ⟨w, hrun, hstate⟩ := hfirst
      exact ⟨w, run_bind_cut hrun, hstate⟩

/-- What becomes of a run. -/
theorem outcome (h : Fares x count path good bad) (faults : List Fault)
    (calls : List (State × Call)) :
    (x.run ⟨path 0, faults, calls⟩).2.state = path (effects count faults) ∧
      match (x.run ⟨path 0, faults, calls⟩).1 with
      | .done a => fate count faults ≠ .cut ∧ (if fate count faults = .done then good a else bad a)
      | .cut => fate count faults = .cut := by
  have hrun := h faults calls
  have heffects := effects_of_fate count faults
  cases hfate : fate count faults with
  | done =>
      rw [hfate] at hrun heffects
      obtain ⟨a, calls', hrun, ha⟩ := hrun
      rw [hrun, heffects]
      exact ⟨rfl, nofun, by rwa [if_pos rfl]⟩
  | unreported | failed =>
      rw [hfate] at hrun
      obtain ⟨a, w, hrun, ha, hstate⟩ := hrun
      rw [hrun]
      exact ⟨hstate, nofun, by rwa [if_neg nofun]⟩
  | cut =>
      rw [hfate] at hrun
      obtain ⟨w, hrun, hstate⟩ := hrun
      rw [hrun]
      exact ⟨hstate, rfl⟩

end Fares

end Faulty

end Storage
