import Mathlib.Data.List.Basic
import Mathlib.Tactic.Common

/-!
# Programs on a bus

A program that talks to a device through registers. What a read returns is up to
the device, what is written goes on record. A run is observed until the program
returns or the device gives no more answers, so that whatever holds of the record
of every run holds at every moment of every run.
-/

/-- The record of a run, and what it returned, with the answers that are left. -/
def Bus (Access Answer α : Type) : Type :=
  List Answer → List Access × Option (α × List Answer)

namespace Bus

variable {Access Answer α β : Type}

instance : Monad (Bus Access Answer) where
  pure a := fun answers => ([], some (a, answers))
  bind x f := fun answers =>
    match x answers with
    | (log, none) => (log, none)
    | (log, some (a, rest)) => (log ++ (f a rest).1, (f a rest).2)

instance : LawfulMonad (Bus Access Answer) := by
  refine LawfulMonad.mk' _ (fun x => ?_) (fun _ _ => rfl) (fun x f g => ?_)
  · funext answers
    simp only [Functor.map]
    rcases x answers with ⟨log, _ | ⟨a, rest⟩⟩
    · rfl
    · exact congrArg (·, _) (List.append_nil log)
  · funext answers
    simp only [Bind.bind]
    rcases x answers with ⟨log, _ | ⟨a, rest⟩⟩
    · rfl
    · rcases hback : f a rest with ⟨log', _ | ⟨b, rest'⟩⟩
      · simp [hback]
      · simp [hback]

/-- Observe a run. -/
def run (x : Bus Access Answer α) (answers : List Answer) :
    List Access × Option (α × List Answer) := x answers

/-- Read a register. -/
def read : Bus Access Answer Answer
  | [] => ([], none)
  | answer :: rest => ([], some (answer, rest))

/-- Write a register. -/
def write (access : Access) : Bus Access Answer Unit :=
  fun answers => ([access], some ((), answers))

/-- Read a register over and over, while it says so. -/
def readWhile (busy : Answer → Bool) : Bus Access Answer Unit
  | [] => ([], none)
  | answer :: rest => if busy answer then readWhile busy rest else ([], some ((), rest))

/-! ## What is written -/

/-- Whatever the device answers, only such accesses are made. -/
def Writes (good : Access → Prop) (x : Bus Access Answer α) : Prop :=
  ∀ answers, ∀ access ∈ (x.run answers).1, good access

namespace Writes

variable {good : Access → Prop} {x : Bus Access Answer α} {f : α → Bus Access Answer β}

theorem pure (a : α) : Writes good (pure a : Bus Access Answer α) :=
  fun _ _ h => absurd h List.not_mem_nil

theorem read : Writes good (read : Bus Access Answer Answer) := by
  intro answers
  cases answers with
  | nil => exact fun _ h => absurd h List.not_mem_nil
  | cons answer rest => exact fun _ h => absurd h List.not_mem_nil

theorem write {access : Access} (h : good access) :
    Writes good (write access : Bus Access Answer Unit) := by
  intro answers access' hmem
  rw [List.mem_singleton.mp hmem]
  exact h

theorem readWhile (busy : Answer → Bool) :
    Writes good (readWhile busy : Bus Access Answer Unit) := by
  intro answers
  induction answers with
  | nil => exact fun _ h => absurd h List.not_mem_nil
  | cons answer rest ih =>
      rw [run, Bus.readWhile]
      split
      · exact ih
      · exact fun _ h => absurd h List.not_mem_nil

theorem mono {good' : Access → Prop} (hx : Writes good x)
    (h : ∀ access, good access → good' access) : Writes good' x :=
  fun answers access hmem => h access (hx answers access hmem)

theorem bind (hx : Writes good x) (hf : ∀ a, Writes good (f a)) : Writes good (x >>= f) := by
  intro answers access hmem
  have hfront := hx answers
  rw [run] at hmem hfront
  change access ∈ (match x answers with
    | (log, none) => (log, none)
    | (log, some (a, rest)) => (log ++ (f a rest).1, (f a rest).2)).1 at hmem
  rcases hout : x answers with ⟨log, _ | ⟨a, rest⟩⟩ <;> rw [hout] at hmem hfront
  · exact hfront access hmem
  · rcases List.mem_append.mp hmem with hmem | hmem
    · exact hfront access hmem
    · exact hf a rest access hmem

/-- What is done with a value that was worked out from what was read. -/
theorem map_bind {γ : Type} {g : α → β} {h : β → Bus Access Answer γ} (hx : Writes good x)
    (hh : ∀ a, Writes good (h (g a))) : Writes good (g <$> x >>= h) := by
  rw [bind_map_left]
  exact bind hx hh

theorem map {g : α → β} (hx : Writes good x) : Writes good (g <$> x) :=
  bind hx fun _ => pure _

theorem ite {cond : Prop} [Decidable cond] {x y : Bus Access Answer α}
    (hx : cond → Writes good x) (hy : ¬ cond → Writes good y) :
    Writes good (if cond then x else y) := by
  split
  next h => exact hx h
  next h => exact hy h

end Writes

/-! ## What is returned -/

/-- The program reads nothing, and always returns this. -/
def Returns (a : α) (x : Bus Access Answer α) : Prop :=
  ∀ answers, (x.run answers).2 = some (a, answers)

namespace Returns

variable {x : Bus Access Answer α} {f : α → Bus Access Answer β} {a : α} {b : β}

theorem pure (a : α) : Returns a (pure a : Bus Access Answer α) := fun _ => rfl

theorem write (access : Access) : Returns () (write access : Bus Access Answer Unit) :=
  fun _ => rfl

/-- The record of a program that goes on with what is returned. -/
theorem run_bind (hx : Returns a x) (answers : List Answer) :
    (x >>= f).run answers =
      ((x.run answers).1 ++ ((f a).run answers).1, ((f a).run answers).2) := by
  have hreturns := hx answers
  rw [run] at hreturns
  simp only [run, Bind.bind]
  rcases hout : x answers with ⟨log, back?⟩
  rw [hout] at hreturns
  simp only at hreturns
  rw [hreturns]

theorem bind (hx : Returns a x) (hf : Returns b (f a)) : Returns b (x >>= f) := by
  intro answers
  rw [hx.run_bind]
  exact hf answers

theorem map (g : α → β) (hx : Returns a x) : Returns (g a) (g <$> x) :=
  bind hx (pure (g a))

theorem ite {cond : Prop} [Decidable cond] {x y : Bus Access Answer α} {a b : α}
    (hx : cond → Returns a x) (hy : ¬ cond → Returns b y) :
    Returns (if cond then a else b) (if cond then x else y) := by
  split
  next h => exact hx h
  next h => exact hy h

/-- What comes next need only be right about what is returned. -/
theorem writes_bind {good : Access → Prop} (hreturns : Returns a x) (hx : Writes good x)
    (hf : Writes good (f a)) : Writes good (x >>= f) := by
  intro answers access hmem
  rw [hreturns.run_bind] at hmem
  rcases List.mem_append.mp hmem with hmem | hmem
  · exact hx answers access hmem
  · exact hf answers access hmem

end Returns

end Bus
