import Mathlib.Algebra.Ring.Nat
import OtaBoot.Foundation.Faulty

/-!
# What the calls of a program cost

Every call has its price, whether the device does what it is asked to or not. A
program starts with credits, pays for its calls out of them and hands on what is
left, so that a loop may save up for an expensive turn.
-/

namespace Storage

variable {State Call α β : Type}

/-- The price of the calls made so far. -/
def World.spent (price : Call → Nat) (w : World State Call) : Nat :=
  (w.calls.map fun entry => price entry.2).sum

theorem World.spent_mul (factor : Nat) (price : Call → Nat) (w : World State Call) :
    w.spent (fun call => factor * price call) = factor * w.spent price := by
  unfold spent
  induction w.calls with
  | nil => rfl
  | cons entry calls ih => simp only [List.map_cons, List.sum_cons, Nat.mul_add, ih]

namespace Faulty

/-- Whatever happens, the program pays for its calls, and what it returns comes
with the credits that are left. -/
def Pays (price : Call → Nat) (credits : Nat) (x : Faulty State Call α)
    (post : α → Nat → Prop) : Prop :=
  ∀ w : World State Call, match x.run w with
    | (.done a, w') => ∃ left, w'.spent price + left ≤ w.spent price + credits ∧ post a left
    | (.cut, w') => w'.spent price ≤ w.spent price + credits

namespace Pays

variable {price : Call → Nat} {credits : Nat} {x : Faulty State Call α}
  {f : α → Faulty State Call β}

theorem conseq {less : Nat} {post post' : α → Nat → Prop} (h : Pays price less x post)
    (hless : less ≤ credits) (hpost : ∀ a left, post a left → post' a left) :
    Pays price credits x post' := by
  intro w
  have hout := h w
  rcases hrun : x.run w with ⟨a | _, w'⟩ <;> rw [hrun] at hout
  · obtain ⟨left, hspent, hleft⟩ := hout
    exact ⟨left, by omega, hpost a left hleft⟩
  · exact Nat.le_trans hout (Nat.add_le_add_left hless _)

/-- Credits that the program does not need are handed on. -/
theorem frame {post : α → Nat → Prop} (h : Pays price credits x post) (extra : Nat) :
    Pays price (credits + extra) x fun a left => ∃ less, post a less ∧ left = less + extra := by
  intro w
  have hout := h w
  rcases hrun : x.run w with ⟨a | _, w'⟩ <;> rw [hrun] at hout <;> dsimp only at hout ⊢
  · obtain ⟨left, hspent, hleft⟩ := hout
    exact ⟨left + extra, by omega, left, hleft, rfl⟩
  · omega

theorem pure {post : α → Nat → Prop} {a : α} (h : post a credits) :
    Pays price credits (Pure.pure a : Faulty State Call α) post :=
  fun _ => ⟨credits, Nat.le_refl _, h⟩

theorem bind {middle : α → Nat → Prop} {post : β → Nat → Prop}
    (hx : Pays price credits x middle)
    (hf : ∀ a left, middle a left → Pays price left (f a) post) :
    Pays price credits (x >>= f) post := by
  intro w
  have hout := hx w
  rw [run_bind]
  rcases hrun : x.run w with ⟨a | _, w'⟩ <;> rw [hrun] at hout
  · obtain ⟨left, hspent, hleft⟩ := hout
    have hrest := hf a left hleft w'
    dsimp only
    rcases hback : (f a).run w' with ⟨b | _, w''⟩ <;> rw [hback] at hrest
    · obtain ⟨left', hspent', hleft'⟩ := hrest
      exact ⟨left', by omega, hleft'⟩
    · dsimp only at hrest ⊢
      omega
  · exact hout

theorem ite {cond : Prop} [Decidable cond] {x y : Faulty State Call α} {post : α → Nat → Prop}
    (hx : cond → Pays price credits x post) (hy : ¬ cond → Pays price credits y post) :
    Pays price credits (if cond then x else y) post := by
  split
  next h => exact hx h
  next h => exact hy h

/-- A program that makes one call. -/
theorem of_call {call : Call} {post : α → Nat → Prop}
    (hcalls : ∀ w, (x.run w).2.calls = w.calls ++ [(w.state, call)])
    (hprice : price call ≤ credits) (hpost : ∀ a, post a (credits - price call)) :
    Pays price credits x post := by
  intro w
  have hspent : (x.run w).2.spent price = w.spent price + price call := by
    rw [World.spent, hcalls, List.map_append, List.sum_append]
    rfl
  rcases hrun : x.run w with ⟨a | _, w'⟩ <;> rw [hrun] at hspent <;> dsimp only at hspent ⊢
  · exact ⟨credits - price call, by omega, hpost a⟩
  · omega

/-- A program that makes none. -/
theorem of_silent {post : α → Nat → Prop} (h : x.Silent) (hpost : ∀ a, post a credits) :
    Pays price credits x post := by
  intro w
  have hspent : (x.run w).2.spent price = w.spent price := by
    rw [World.spent, h]
    rfl
  rcases hrun : x.run w with ⟨a | _, w'⟩ <;> rw [hrun] at hspent <;> dsimp only at hspent ⊢
  · exact ⟨credits, by omega, hpost a⟩
  · omega

/-- A call, and what is done about its answer. -/
theorem bind_call {call : Call} {post : β → Nat → Prop}
    (hcalls : ∀ w, (x.run w).2.calls = w.calls ++ [(w.state, call)])
    (hprice : price call ≤ credits)
    (hf : ∀ a, Pays price (credits - price call) (f a) post) : Pays price credits (x >>= f) post := by
  have hcall : Pays price credits x fun _ left => left = credits - price call :=
    of_call hcalls hprice fun _ => rfl
  refine hcall.bind fun a left hleft => ?_
  rw [hleft]
  exact hf a

/-- Something that costs nothing, and what follows from it. -/
theorem bind_silent {post : β → Nat → Prop} (h : x.Silent)
    (hf : ∀ a, Pays price credits (f a) post) : Pays price credits (x >>= f) post := by
  have hfree : Pays price credits x fun _ left => left = credits := of_silent h fun _ => rfl
  refine hfree.bind fun a left hleft => ?_
  rw [hleft]
  exact hf a

/-- What is paid by the end, returned or cut. -/
theorem spent_le {post : α → Nat → Prop} (h : Pays price credits x post) (w : World State Call) :
    (x.run w).2.spent price ≤ w.spent price + credits := by
  have hout := h w
  rcases hrun : x.run w with ⟨a | _, w'⟩ <;> rw [hrun] at hout
  · obtain ⟨left, hspent, -⟩ := hout
    exact Nat.le_trans (Nat.le_add_right _ _) hspent
  · exact hout

/-- What a value that is returned comes with. -/
theorem exists_left {post : α → Nat → Prop} (h : Pays price credits x post)
    {w w' : World State Call} {a : α} (hrun : x.run w = (.done a, w')) :
    ∃ left, w'.spent price + left ≤ w.spent price + credits ∧ post a left := by
  have hout := h w
  rw [hrun] at hout
  exact hout

end Pays

end Faulty

end Storage
