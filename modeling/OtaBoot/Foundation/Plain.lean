import OtaBoot.Foundation.Faulty

/-!
# Programs that nothing disturbs

Where no operation fails and power stays, a program returns, and what it returns
and leaves depends on the persistent state alone. The calls that were noted before
it was run make no difference.
-/

namespace Storage.Faulty

variable {State Call α β : Type}

/-- Undisturbed, the program is a function of the persistent state. -/
def Plain (x : Faulty State Call α) : Prop :=
  ∀ s, ∃ a s' more, ∀ calls, x.run ⟨s, [], calls⟩ = (.done a, ⟨s', [], calls ++ more⟩)

namespace Plain

variable {x : Faulty State Call α} {f : α → Faulty State Call β}

theorem pure (a : α) : Plain (Pure.pure a : Faulty State Call α) :=
  fun s => ⟨a, s, [], fun calls => by rw [List.append_nil, run_pure]⟩

theorem read : Plain (Faulty.read : Faulty State Call State) :=
  fun s => ⟨s, s, [], fun calls => by rw [List.append_nil, run_read]⟩

theorem note (call : Call) : Plain (Faulty.note call : Faulty State Call Unit) :=
  fun s => ⟨(), s, [(s, call)], fun calls => run_note call ⟨s, [], calls⟩⟩

theorem perform (op : State → Option State) :
    Plain (Faulty.perform op : Faulty State Call Bool) := by
  intro s
  cases hop : op s with
  | none =>
      refine ⟨false, s, [], fun calls => ?_⟩
      simp [run, Faulty.perform, hop]
  | some s' =>
      refine ⟨true, s', [], fun calls => ?_⟩
      simp [run, Faulty.perform, hop]

theorem bind (hx : Plain x) (hf : ∀ a, Plain (f a)) : Plain (x >>= f) := by
  intro s
  obtain ⟨a, s₁, front, hfirst⟩ := hx s
  obtain ⟨b, s₂, back, hsecond⟩ := hf a s₁
  refine ⟨b, s₂, front ++ back, fun calls => ?_⟩
  rw [run_bind_done (hfirst calls), hsecond, List.append_assoc]

theorem ite {cond : Prop} [Decidable cond] {y : Faulty State Call α} (hx : Plain x)
    (hy : Plain y) : Plain (if cond then x else y) := by
  split
  · exact hx
  · exact hy

end Plain

end Storage.Faulty
