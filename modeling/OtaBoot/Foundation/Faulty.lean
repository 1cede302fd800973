import Mathlib.Tactic.Common

/-!
# Programs over a storage device that may fail

A program issues atomic operations on a persistent state. The environment
decides the fate of every operation: it may run, be reported as failed with or
without having taken effect, or be the point where power is lost. A power cut
ends the program and keeps the persistent state reached so far, so volatile
values are lost by construction.

`Triple` is the program logic: besides a precondition and a postcondition it
has a crash condition, which holds of the state a power cut leaves.
-/

namespace Storage

/-- What the environment does to one operation. -/
inductive Fault
  /-- The operation runs. -/
  | none
  /-- An error is reported and nothing was stored. -/
  | lost
  /-- An error is reported although the effect took place. -/
  | late
  /-- Power is lost before the operation. -/
  | cutBefore
  /-- Power is lost right after the operation. -/
  | cutAfter
  deriving DecidableEq, Repr

/-- Nothing but power loss disturbs the operation: no error is reported. -/
def Fault.Quiet : Fault → Prop
  | .lost | .late => False
  | .none | .cutBefore | .cutAfter => True

instance : DecidablePred Fault.Quiet
  | .lost | .late => isFalse id
  | .none | .cutBefore | .cutAfter => isTrue trivial

/-- The persistent state, the faults still to come (none after the last of
them), and the calls noted so far with the state each was made in. -/
structure World (State Call : Type) where
  state : State
  faults : List Fault := []
  calls : List (State × Call) := []

/-- A program returns a value or is cut off by a loss of power. -/
inductive Outcome (α : Type) where
  | done (value : α)
  | cut
  deriving DecidableEq, Repr

/-- Programs over a faulty device. -/
def Faulty (State Call α : Type) : Type :=
  World State Call → Outcome α × World State Call

namespace Faulty

variable {State Call α β : Type}

/-- Run a program from a world. -/
def run (x : Faulty State Call α) (w : World State Call) : Outcome α × World State Call := x w

instance : Monad (Faulty State Call) where
  pure a := fun w => (.done a, w)
  bind x f := fun w =>
    match x w with
    | (.done a, w') => f a w'
    | (.cut, w') => (.cut, w')

instance : LawfulMonad (Faulty State Call) := by
  refine LawfulMonad.mk' _ (fun x => ?_) (fun _ _ => rfl) (fun x f g => ?_)
  · funext w
    simp only [Functor.map]
    rcases x w with ⟨_ | _, w'⟩ <;> rfl
  · funext w
    simp only [bind]
    rcases x w with ⟨_ | _, w'⟩ <;> rfl

/-- Look at the persistent state. -/
def read : Faulty State Call State := fun w => (.done w.state, w)

/-- Note a call together with the state it is made in. -/
def note (call : Call) : Faulty State Call Unit :=
  fun w => (.done (), { w with calls := w.calls ++ [(w.state, call)] })

/-- Issue one atomic operation, which the device may refuse; the answer tells
whether success was reported. -/
def perform (op : State → Option State) : Faulty State Call Bool := fun w =>
  let w' := { w with faults := w.faults.tail }
  -- no fault is left after the last of the list
  match w.faults.head?.getD .none with
  | .none =>
      match op w.state with
      | some state => (.done true, { w' with state })
      | Option.none => (.done false, w')
  | .lost => (.done false, w')
  | .late => (.done false, { w' with state := (op w.state).getD w.state })
  | .cutBefore => (.cut, w')
  | .cutAfter => (.cut, { w' with state := (op w.state).getD w.state })

@[simp] theorem run_pure (a : α) (w : World State Call) :
    (pure a : Faulty State Call α).run w = (.done a, w) := rfl

theorem run_bind (x : Faulty State Call α) (f : α → Faulty State Call β) (w : World State Call) :
    (x >>= f).run w =
      match x.run w with
      | (.done a, w') => (f a).run w'
      | (.cut, w') => (.cut, w') := rfl

theorem run_bind_done {x : Faulty State Call α} {f : α → Faulty State Call β} {a : α}
    {w w' : World State Call} (h : x.run w = (.done a, w')) : (x >>= f).run w = (f a).run w' := by
  rw [run_bind, h]

theorem run_bind_cut {x : Faulty State Call α} {f : α → Faulty State Call β}
    {w w' : World State Call} (h : x.run w = (.cut, w')) : (x >>= f).run w = (.cut, w') := by
  rw [run_bind, h]

/-- A value that is worked out from what a program returns. -/
theorem exists_of_run_map {x : Faulty State Call α} {f : α → β} {b : β}
    {w w' : World State Call} (h : (f <$> x).run w = (.done b, w')) :
    ∃ a, x.run w = (.done a, w') ∧ f a = b := by
  rw [map_eq_pure_bind, run_bind] at h
  cases hx : x.run w with
  | mk out w₁ =>
      rw [hx] at h
      cases out with
      | done a =>
          cases h
          exact ⟨a, rfl, rfl⟩
      | cut => cases h

@[simp] theorem run_read (w : World State Call) :
    (read : Faulty State Call State).run w = (.done w.state, w) := rfl

@[simp] theorem run_note (call : Call) (w : World State Call) :
    (note call).run w = (.done (), { w with calls := w.calls ++ [(w.state, call)] }) := rfl

/-- An operation that nothing disturbs. -/
theorem run_perform_calm {op : State → Option State} {s s' : State} (h : op s = some s')
    (calls : List (State × Call)) :
    (perform op).run ⟨s, [], calls⟩ = (.done true, ⟨s', [], calls⟩) := by
  simp [run, perform, h]

/-- An operation that the device refuses. -/
theorem run_perform_refused {op : State → Option State} {s : State} (h : op s = none)
    (calls : List (State × Call)) :
    (perform op).run ⟨s, [], calls⟩ = (.done false, ⟨s, [], calls⟩) := by
  simp [run, perform, h]

/-! ## Calls -/

/-- The program makes no calls. -/
def Silent (x : Faulty State Call α) : Prop :=
  ∀ w : World State Call, (x.run w).2.calls = w.calls

theorem Silent.pure (a : α) : Silent (pure a : Faulty State Call α) := fun _ => rfl

theorem Silent.read : Silent (read : Faulty State Call State) := fun _ => rfl

theorem Silent.perform (op : State → Option State) :
    Silent (perform op : Faulty State Call Bool) := by
  intro w
  unfold run Faulty.perform
  cases w.faults.head?.getD .none with
  | none => cases op w.state <;> rfl
  | lost | late | cutBefore | cutAfter => rfl

theorem Silent.bind {x : Faulty State Call α} {f : α → Faulty State Call β} (hx : Silent x)
    (hf : ∀ a, Silent (f a)) : Silent (x >>= f) := by
  intro w
  rw [run_bind, ← hx w]
  cases x.run w with
  | mk out w' =>
      cases out with
      | done a => exact hf a w'
      | cut => rfl

theorem Silent.ite {cond : Prop} [Decidable cond] {x y : Faulty State Call α} (hx : Silent x)
    (hy : Silent y) : Silent (if cond then x else y) := by
  split
  · exact hx
  · exact hy

/-- The calls of a program that is chosen by the result of another. -/
theorem calls_bind {x : Faulty State Call α} {f : α → Faulty State Call β}
    (hf : ∀ a, Silent (f a)) (w : World State Call) :
    ((x >>= f).run w).2.calls = (x.run w).2.calls := by
  rw [run_bind]
  cases x.run w with
  | mk out w' =>
      cases out with
      | done a => exact hf a w'
      | cut => rfl

/-! ## Values -/

/-- Whatever happens, a value that the program returns is a good one. -/
def Yields (good : α → Prop) (x : Faulty State Call α) : Prop :=
  ∀ (w w' : World State Call) (a : α), x.run w = (.done a, w') → good a

theorem Yields.pure {good : α → Prop} {a : α} (h : good a) :
    Yields good (pure a : Faulty State Call α) := by
  intro w w' a' hrun
  cases hrun
  exact h

theorem Yields.bind {good : β → Prop} {x : Faulty State Call α} {f : α → Faulty State Call β}
    (h : ∀ a, Yields good (f a)) : Yields good (x >>= f) := by
  intro w w' b hrun
  rw [run_bind] at hrun
  cases hx : x.run w with
  | mk out w₁ =>
      rw [hx] at hrun
      cases out with
      | done a => exact h a w₁ w' b hrun
      | cut => cases hrun

/-- A continuation may rely on what the program before it returns. -/
theorem Yields.bind_of {good : β → Prop} {fair : α → Prop} {x : Faulty State Call α}
    {f : α → Faulty State Call β} (hx : Yields fair x) (h : ∀ a, fair a → Yields good (f a)) :
    Yields good (x >>= f) := by
  intro w w' b hrun
  rw [run_bind] at hrun
  cases hone : x.run w with
  | mk out w₁ =>
      rw [hone] at hrun
      cases out with
      | done a => exact h a (hx w w₁ a hone) w₁ w' b hrun
      | cut => cases hrun

theorem Yields.ite {good : α → Prop} {cond : Prop} [Decidable cond] {x y : Faulty State Call α}
    (hx : cond → Yields good x) (hy : ¬ cond → Yields good y) :
    Yields good (if cond then x else y) := by
  split
  next h => exact hx h
  next h => exact hy h

end Faulty

/-! ## The program logic -/

/-- What a program may rely on and must respect: the faults that can occur, and
the calls it may make in each state. -/
structure Climate (State Call : Type) where
  faults : Fault → Prop
  calls : State → Call → Prop

namespace Climate

variable {State Call : Type}

/-- Any fault at all, any call. -/
def harsh : Climate State Call := ⟨fun _ => True, fun _ _ => True⟩

/-- Power cuts only, any call. -/
def quiet : Climate State Call := ⟨Fault.Quiet, fun _ _ => True⟩

/-- No fault at all, any call. -/
def calm : Climate State Call := ⟨(· = .none), fun _ _ => True⟩

/-- The climate reports no errors. -/
def ReportsNoError (c : Climate State Call) : Prop := ∀ fault, c.faults fault → fault.Quiet

theorem calm_reportsNoError : (calm : Climate State Call).ReportsNoError := by
  rintro _ rfl
  trivial

theorem harsh_not_reportsNoError : ¬ (harsh : Climate State Call).ReportsNoError :=
  fun h => h .lost trivial

/-- The climate has no power cut. -/
def HasPower (c : Climate State Call) : Prop := ¬ c.faults .cutBefore ∧ ¬ c.faults .cutAfter

theorem calm_hasPower : (calm : Climate State Call).HasPower :=
  ⟨Fault.noConfusion, Fault.noConfusion⟩

end Climate

/-- The faults to come and the calls made so far agree with a climate. -/
structure World.Admitted {State Call : Type} (w : World State Call) (c : Climate State Call) :
    Prop where
  faults : ∀ fault ∈ w.faults, c.faults fault
  calls : ∀ call ∈ w.calls, c.calls call.1 call.2

/-- Nothing has happened and nothing is to come. -/
theorem World.admitted_fresh {State Call : Type} (c : Climate State Call) (s : State) :
    (⟨s, [], []⟩ : World State Call).Admitted c :=
  ⟨fun _ h => absurd h List.not_mem_nil, fun _ h => absurd h List.not_mem_nil⟩

/-- From every state that satisfies `pre`, in the given climate, the program
respects the climate and either returns with `post` or, where power can be lost,
is cut off with `crash`. -/
def Triple {State Call α : Type} (c : Climate State Call) (pre : State → Prop)
    (x : Faulty State Call α) (post : α → State → Prop) (crash : State → Prop) : Prop :=
  ∀ w : World State Call, w.Admitted c → pre w.state →
    (x.run w).2.Admitted c ∧
      match (x.run w).1 with
      | .done a => post a (x.run w).2.state
      | .cut => ¬ c.HasPower ∧ crash (x.run w).2.state

namespace Triple

variable {State Call α β : Type} {c : Climate State Call} {pre pre' : State → Prop}
  {crash crash' : State → Prop}

/-- Strengthen the precondition, weaken the other two. -/
theorem conseq {x : Faulty State Call α} {post post' : α → State → Prop}
    (h : Triple c pre x post crash) (hpre : ∀ s, pre' s → pre s)
    (hpost : ∀ a s, post a s → post' a s) (hcrash : ∀ s, crash s → crash' s) :
    Triple c pre' x post' crash' := by
  intro w hadm hw
  obtain ⟨hadm', hout⟩ := h w hadm (hpre _ hw)
  refine ⟨hadm', ?_⟩
  cases hx : (x.run w).1 with
  | done a => rw [hx] at hout; exact hpost _ _ hout
  | cut => rw [hx] at hout; exact ⟨hout.1, hcrash _ hout.2⟩

/-- What holds after a program for two reasons. -/
theorem and {x : Faulty State Call α} {post post' : α → State → Prop}
    (h : Triple c pre x post crash) (h' : Triple c pre x post' crash') :
    Triple c pre x (fun a s => post a s ∧ post' a s) fun s => crash s ∧ crash' s := by
  intro w hadm hw
  obtain ⟨hadm', hout⟩ := h w hadm hw
  obtain ⟨-, hout'⟩ := h' w hadm hw
  refine ⟨hadm', ?_⟩
  cases hx : (x.run w).1 with
  | done a =>
      rw [hx] at hout hout'
      exact ⟨hout, hout'⟩
  | cut =>
      rw [hx] at hout hout'
      exact ⟨hout.1, hout.2, hout'.2⟩

/-- It suffices to start from each state that satisfies the precondition. -/
theorem of_state {x : Faulty State Call α} {post : α → State → Prop}
    (h : ∀ s, pre s → Triple c (· = s) x post crash) : Triple c pre x post crash :=
  fun w hadm hw => h w.state hw w hadm rfl

theorem pure {a : α} {post : α → State → Prop} (h : ∀ s, pre s → post a s) :
    Triple c pre (pure a : Faulty State Call α) post crash :=
  fun _ hadm hw => ⟨hadm, h _ hw⟩

theorem bind {x : Faulty State Call α} {f : α → Faulty State Call β}
    {mid : α → State → Prop} {post : β → State → Prop}
    (hx : Triple c pre x mid crash) (hf : ∀ a, Triple c (mid a) (f a) post crash) :
    Triple c pre (x >>= f) post crash := by
  intro w hadm hw
  obtain ⟨hadm', hout⟩ := hx w hadm hw
  rw [Faulty.run_bind]
  cases hrun : x.run w with
  | mk out w' =>
      rw [hrun] at hadm' hout
      cases out with
      | done a => exact hf a w' hadm' hout
      | cut => exact ⟨hadm', hout⟩

theorem ite {cond : Prop} [Decidable cond] {x y : Faulty State Call α} {post : α → State → Prop}
    (hx : cond → Triple c pre x post crash) (hy : ¬ cond → Triple c pre y post crash) :
    Triple c pre (if cond then x else y) post crash := by
  split
  next h => exact hx h
  next h => exact hy h

/-- A program chosen by a test, and the same continuation after both. -/
theorem bind_ite {cond : Prop} [Decidable cond] {x y : Faulty State Call α}
    {f : α → Faulty State Call β} {mid : α → State → Prop} {post : β → State → Prop}
    (hxy : Triple c pre (if cond then x else y) mid crash)
    (hf : ∀ a, Triple c (mid a) (f a) post crash) :
    Triple c pre (if cond then x >>= f else y >>= f) post crash := by
  split
  next h => exact bind (by simpa only [if_pos h] using hxy) hf
  next h => exact bind (by simpa only [if_neg h] using hxy) hf

theorem read {Q : State → State → Prop} (h : ∀ s, pre s → Q s s) :
    Triple c pre (Faulty.read : Faulty State Call State) Q crash :=
  fun _ hadm hw => ⟨hadm, h _ hw⟩

theorem pure_at {a : α} {post : α → State → Prop} {s : State} (h : post a s) :
    Triple c (· = s) (Pure.pure a : Faulty State Call α) post crash :=
  pure fun _ hs => hs ▸ h

/-- A program that looks at a known state first. -/
theorem read_at {f : State → Faulty State Call α} {post : α → State → Prop} {s : State}
    (h : Triple c (· = s) (f s) post crash) :
    Triple c (· = s) (Faulty.read >>= f) post crash := by
  rintro w hadm rfl
  exact h w hadm rfl

theorem note {call : Call} {Q : Unit → State → Prop}
    (hcall : ∀ s, pre s → c.calls s call) (h : ∀ s, pre s → Q () s) :
    Triple c pre (Faulty.note call) Q crash := by
  intro w hadm hw
  refine ⟨⟨hadm.faults, ?_⟩, h _ hw⟩
  intro entry hentry
  rcases List.mem_append.mp hentry with hold | hnew
  · exact hadm.calls entry hold
  · obtain rfl := List.mem_singleton.mp hnew
    exact hcall _ hw

/-- One atomic operation: its effect or nothing, whatever is reported. -/
theorem perform {op : State → Option State} {Q : Bool → State → Prop}
    (hran : ∀ s s', pre s → op s = some s' → Q true s')
    (hrefused : ∀ s, pre s → op s = Option.none → Q false s)
    (hlost : c.faults .lost → ∀ s, pre s → Q false s)
    (hlate : c.faults .late → ∀ s, pre s → Q false ((op s).getD s))
    (hbefore : c.faults .cutBefore → ∀ s, pre s → crash s)
    (hafter : c.faults .cutAfter → ∀ s, pre s → crash ((op s).getD s)) :
    Triple c pre (Faulty.perform op) Q crash := by
  intro w hadm hw
  have hhead : ∀ fault, w.faults.head?.getD .none = fault → fault = .none ∨ c.faults fault := by
    intro fault hfault
    cases hw' : w.faults with
    | nil => exact .inl (by simpa [hw'] using hfault.symm)
    | cons first rest =>
        have hfirst : first = fault := by simpa [hw'] using hfault
        exact .inr (hfirst ▸ hadm.faults first (by simp [hw']))
  have htail : ∀ state, ({ w with faults := w.faults.tail, state } : World State Call).Admitted c :=
    fun _ => ⟨fun fault hfault => hadm.faults fault (List.mem_of_mem_tail hfault), hadm.calls⟩
  unfold Faulty.run Faulty.perform
  -- one case for each fate of the operation
  cases hfault : w.faults.head?.getD .none with
  | none =>
      cases hop : op w.state with
      | none => simpa [hop] using ⟨htail _, hrefused _ hw hop⟩
      | some s' => simpa [hop] using ⟨htail _, hran _ _ hw hop⟩
  | lost => exact ⟨htail _, hlost ((hhead _ hfault).resolve_left nofun) _ hw⟩
  | late => exact ⟨htail _, hlate ((hhead _ hfault).resolve_left nofun) _ hw⟩
  | cutBefore =>
      have hcut := (hhead _ hfault).resolve_left nofun
      exact ⟨htail _, fun hpower => hpower.1 hcut, hbefore hcut _ hw⟩
  | cutAfter =>
      have hcut := (hhead _ hfault).resolve_left nofun
      exact ⟨htail _, fun hpower => hpower.2 hcut, hafter hcut _ hw⟩

/-- One atomic operation with a known effect: it takes effect or not, and has
taken effect when it reports so. -/
theorem perform_effect {op : State → Option State} {before after : State}
    (hop : ∀ s, op before = some s → s = after) :
    Triple c (· = before) (Faulty.perform op)
      (fun ran s => (s = before ∨ s = after) ∧ (ran = true → s = after) ∧
        (c.ReportsNoError → op before ≠ Option.none → ran = true))
      (fun s => s = before ∨ s = after) := by
  have heffect : (op before).getD before = before ∨ (op before).getD before = after := by
    cases h : op before with
    | none => exact .inl rfl
    | some s => exact .inr (hop s h)
  refine perform ?_ ?_ ?_ ?_ ?_ ?_
  · rintro s s' rfl hs'
    have hs' := hop s' hs'
    exact ⟨.inr hs', fun _ => hs', fun _ _ => rfl⟩
  · rintro s rfl hs
    exact ⟨.inl rfl, nofun, fun _ hran => absurd hs hran⟩
  · rintro hlost s rfl
    exact ⟨.inl rfl, nofun, fun hquiet => absurd (hquiet _ hlost) id⟩
  · rintro hlate s rfl
    exact ⟨heffect, nofun, fun hquiet => absurd (hquiet _ hlate) id⟩
  · rintro _ s rfl
    exact .inl rfl
  · rintro _ s rfl
    exact heffect

/-- The outcome of a run, read off a triple whose precondition fixes the state. -/
theorem run_from {x : Faulty State Call α} {post : α → State → Prop} {s : State}
    (h : Triple c (· = s) x post crash) (faults : List Fault)
    (hfaults : ∀ fault ∈ faults, c.faults fault) :
    match x.run ⟨s, faults, []⟩ with
    | (.done a, w) => post a w.state ∧ ∀ call ∈ w.calls, c.calls call.1 call.2
    | (.cut, w) => crash w.state ∧ ∀ call ∈ w.calls, c.calls call.1 call.2 := by
  obtain ⟨hadm, hout⟩ := h ⟨s, faults, []⟩ ⟨hfaults, nofun⟩ rfl
  cases hx : x.run ⟨s, faults, []⟩ with
  | mk out w =>
      rw [hx] at hadm hout
      cases out with
      | done a => exact ⟨hout, hadm.calls⟩
      | cut => exact ⟨hout.2, hadm.calls⟩

/-- Without faults a program returns. -/
theorem run_calm {x : Faulty State Call α} {post : α → State → Prop} {s : State}
    (h : Triple .calm (· = s) x post crash) :
    ∃ a w, x.run ⟨s, [], []⟩ = (.done a, w) ∧ post a w.state := by
  obtain ⟨-, hout⟩ := h ⟨s, [], []⟩ (World.admitted_fresh _ s) rfl
  cases hx : x.run ⟨s, [], []⟩ with
  | mk out w =>
      rw [hx] at hout
      cases out with
      | done a => exact ⟨a, w, rfl, hout⟩
      | cut => exact absurd Climate.calm_hasPower hout.1

end Triple

end Storage
