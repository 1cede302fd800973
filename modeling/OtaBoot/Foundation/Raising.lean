import Mathlib.Tactic.Common

/-!
# Programs that may raise exceptions

A program over a state that it changes and that outlives its exceptions.
`Returns` says that a run ends without one, and with what; its rules follow the
program text. `Ensures` says what holds after every run that starts in a given set
of states, however it ends.
-/

namespace Raising

variable {ε σ α β : Type}

/-- From `s` the program returns `a` and leaves `s'`. -/
def Returns (x : ExceptT ε (StateM σ) α) (s : σ) (a : α) (s' : σ) : Prop :=
  StateT.run x.run s = (Except.ok a, s')

namespace Returns

variable {x : ExceptT ε (StateM σ) α} {f : α → ExceptT ε (StateM σ) β} {a : α} {b : β}
  {s s' s'' : σ}

theorem pure (a : α) (s : σ) : Returns (ε := ε) (Pure.pure a) s a s := rfl

/-- The program goes on with what was returned. -/
theorem run_bind (hx : Returns x s a s') (f : α → ExceptT ε (StateM σ) β) :
    StateT.run (x >>= f).run s = StateT.run (f a).run s' := by
  unfold Returns at hx
  rw [ExceptT.run_bind, StateT.run_bind, hx]
  rfl

theorem bind (hx : Returns x s a s') (hf : Returns (f a) s' b s'') : Returns (x >>= f) s b s'' :=
  (hx.run_bind f).trans hf

theorem get (s : σ) : Returns (MonadState.get : ExceptT ε (StateM σ) σ) s s s := rfl

theorem set (s s' : σ) : Returns (MonadStateOf.set s' : ExceptT ε (StateM σ) PUnit) s ⟨⟩ s' := rfl

/-- A result that is there already. -/
theorem ofExcept {result : Except ε α} (h : result = .ok a) (s : σ) :
    Returns (ofExcept result : ExceptT ε (StateM σ) α) s a s := by
  subst h
  rfl

/-- The handler is not needed. -/
theorem tryCatch {handler : ε → ExceptT ε (StateM σ) α} (h : Returns x s a s') :
    Returns (MonadExcept.tryCatch x handler) s a s' := by
  change StateT.run x s = _ at h
  change StateT.run (ExceptT.run (ExceptT.tryCatch x handler)) s = _
  rw [ExceptT.tryCatch, ExceptT.run_mk, StateT.run_bind, h]
  rfl

end Returns

/-! ## Exceptions -/

/-- From `s` the program raises `e` and leaves `s'`. -/
def Raises (x : ExceptT ε (StateM σ) α) (s : σ) (e : ε) (s' : σ) : Prop :=
  StateT.run x.run s = (Except.error e, s')

namespace Raises

variable {x : ExceptT ε (StateM σ) α} {f : α → ExceptT ε (StateM σ) β} {a : α} {e : ε}
  {s s' s'' : σ}

theorem throw (e : ε) (s : σ) : Raises (throw e : ExceptT ε (StateM σ) α) s e s := rfl

/-- An error that is there already. -/
theorem ofExcept {result : Except ε α} (h : result = .error e) (s : σ) :
    Raises (ofExcept result : ExceptT ε (StateM σ) α) s e s := by
  subst h
  rfl

theorem bind (hx : Returns x s a s') (hf : Raises (f a) s' e s'') : Raises (x >>= f) s e s'' :=
  (hx.run_bind f).trans hf

theorem bind_first (hx : Raises x s e s') (f : α → ExceptT ε (StateM σ) β) :
    Raises (x >>= f) s e s' := by
  unfold Raises at hx
  rw [Raises, ExceptT.run_bind, StateT.run_bind, hx]
  rfl

/-- The handler takes over. -/
theorem tryCatch {handler : ε → ExceptT ε (StateM σ) α} (hx : Raises x s e s')
    (hhandler : Returns (handler e) s' a s'') :
    Returns (MonadExcept.tryCatch x handler) s a s'' := by
  change StateT.run x s = _ at hx
  change StateT.run (ExceptT.run (ExceptT.tryCatch x handler)) s = _
  rw [ExceptT.tryCatch, ExceptT.run_mk, StateT.run_bind, hx]
  exact hhandler

/-- The handler raises in turn. -/
theorem tryCatch_raises {handler : ε → ExceptT ε (StateM σ) α} {e' : ε} (hx : Raises x s e s')
    (hhandler : Raises (handler e) s' e' s'') :
    Raises (MonadExcept.tryCatch x handler) s e' s'' := by
  change StateT.run x s = _ at hx
  change StateT.run (ExceptT.run (ExceptT.tryCatch x handler)) s = _
  rw [ExceptT.tryCatch, ExceptT.run_mk, StateT.run_bind, hx]
  exact hhandler

end Raises

/-! ## What holds afterwards -/

/-- From every state that satisfies `pre` the program returns with `post`, or it
raises an exception with `raised`. -/
def Ensures (pre : σ → Prop) (x : ExceptT ε (StateM σ) α) (post : α → σ → Prop)
    (raised : ε → σ → Prop) : Prop :=
  ∀ s, pre s → match StateT.run x.run s with
    | (.ok a, s') => post a s'
    | (.error e, s') => raised e s'

namespace Ensures

variable {pre : σ → Prop} {x : ExceptT ε (StateM σ) α} {f : α → ExceptT ε (StateM σ) β}
  {post : α → σ → Prop} {post' : β → σ → Prop} {raised : ε → σ → Prop}

/-- What a run that returns has ensured. -/
theorem returns (h : Ensures pre x post raised) {s s' : σ} {a : α} (hpre : pre s)
    (hrun : Returns x s a s') : post a s' := by
  have hpost := h s hpre
  rw [Returns] at hrun
  rw [hrun] at hpost
  exact hpost

/-- What holds however the program ends. -/
theorem final {good : σ → Prop} (h : Ensures pre x (fun _ => good) fun _ => good) {s s' : σ}
    {result : Except ε α} (hpre : pre s) (hrun : StateT.run x.run s = (result, s')) : good s' := by
  have hgood := h s hpre
  rw [hrun] at hgood
  cases result with
  | ok a => exact hgood
  | error e => exact hgood

/-- Strengthen what holds before, weaken what holds afterwards. -/
theorem conseq {pre' : σ → Prop} {post'' : α → σ → Prop} {raised' : ε → σ → Prop}
    (h : Ensures pre x post raised) (hpre : ∀ s, pre' s → pre s)
    (hpost : ∀ a s, post a s → post'' a s) (hraised : ∀ e s, raised e s → raised' e s) :
    Ensures pre' x post'' raised' := by
  intro s hs
  have hafter := h s (hpre s hs)
  cases hrun : StateT.run x.run s with
  | mk result s' =>
      rw [hrun] at hafter
      cases result with
      | ok a => exact hpost a s' hafter
      | error e => exact hraised e s' hafter

/-- A fact that does not depend on the state. -/
theorem of_fact {fact : Prop} (h : fact → Ensures pre x post raised) :
    Ensures (fun s => fact ∧ pre s) x post raised :=
  fun s hs => h hs.1 s hs.2

theorem pure {a : α} (h : ∀ s, pre s → post a s) :
    Ensures pre (Pure.pure a : ExceptT ε (StateM σ) α) post raised :=
  fun s hpre => h s hpre

theorem throw {e : ε} (h : ∀ s, pre s → raised e s) :
    Ensures pre (MonadExcept.throw e : ExceptT ε (StateM σ) α) post raised :=
  fun s hpre => h s hpre

theorem bind (hx : Ensures pre x post raised) (hf : ∀ a, Ensures (post a) (f a) post' raised) :
    Ensures pre (x >>= f) post' raised := by
  intro s hpre
  have hfirst := hx s hpre
  rw [ExceptT.run_bind, StateT.run_bind]
  cases hrun : StateT.run x.run s with
  | mk result s' =>
      rw [hrun] at hfirst
      cases result with
      | ok a => exact hf a s' hfirst
      | error e => exact hfirst

/-- What is done with the state that is read. -/
theorem get_bind {g : σ → ExceptT ε (StateM σ) β}
    (h : ∀ s, pre s → Ensures (· = s) (g s) post' raised) :
    Ensures pre (MonadState.get >>= g) post' raised :=
  fun s hpre => h s hpre s rfl

theorem set {s' : σ} {after : σ → Prop} (h : after s') :
    Ensures pre (MonadStateOf.set s' : ExceptT ε (StateM σ) PUnit) (fun _ => after) raised :=
  fun _ _ => h

theorem ite {cond : Prop} [Decidable cond] {y : ExceptT ε (StateM σ) α}
    (hx : cond → Ensures pre x post raised) (hy : ¬ cond → Ensures pre y post raised) :
    Ensures pre (if cond then x else y) post raised := by
  split
  next h => exact hx h
  next h => exact hy h

/-- A result that is there already. -/
theorem ofExcept {result : Except ε α} (hok : ∀ a, result = .ok a → ∀ s, pre s → post a s)
    (herror : ∀ e, result = .error e → ∀ s, pre s → raised e s) :
    Ensures pre (ofExcept result : ExceptT ε (StateM σ) α) post raised := by
  cases result with
  | ok a => exact hok a rfl
  | error e => exact herror e rfl

/-- The handler takes over where the program has raised. -/
theorem tryCatch {handler : ε → ExceptT ε (StateM σ) α} {caught : ε → σ → Prop}
    (hx : Ensures pre x post caught)
    (hhandler : ∀ e, Ensures (caught e) (handler e) post raised) :
    Ensures pre (MonadExcept.tryCatch x handler) post raised := by
  intro s hpre
  have hfirst := hx s hpre
  change match StateT.run (ExceptT.run (ExceptT.tryCatch x handler)) s with
    | (.ok a, s') => post a s'
    | (.error e, s') => raised e s'
  rw [ExceptT.tryCatch, ExceptT.run_mk, StateT.run_bind]
  cases hrun : StateT.run x.run s with
  | mk result s' =>
      rw [hrun] at hfirst
      change StateT.run x s = _ at hrun
      rw [hrun]
      cases result with
      | ok a => exact hfirst
      | error e => exact hhandler e s' hfirst

end Ensures

end Raising
