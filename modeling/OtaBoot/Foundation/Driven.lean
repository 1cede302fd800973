import OtaBoot.Foundation.Transition

/-!
# Programs on a device that moves by itself

A program and a device whose registers it uses take turns. The schedule says
whose turn it is: the device may move any number of times between two accesses
of the program, and reading a register may change the device. Where the schedule
ends the program is still under way, so that what holds of the device after every
run holds at every moment of every run.
-/

/-- Whose turn it is, and the move that the device makes. -/
inductive Turn (Move : Type) where
  | device (move : Move)
  | program
  deriving DecidableEq, Repr

/-- The device after a run, and what the program returned, with the schedule that
is left. -/
def Driven (Device Move α : Type) : Type :=
  Device → List (Turn Move) → Device × Option (α × List (Turn Move))

namespace Driven

variable {Device Move α β : Type}

instance : Monad (Driven Device Move) where
  pure a := fun device schedule => (device, some (a, schedule))
  bind x f := fun device schedule =>
    match x device schedule with
    | (device, none) => (device, none)
    | (device, some (a, rest)) => f a device rest

instance : LawfulMonad (Driven Device Move) := by
  refine LawfulMonad.mk' _ (fun x => ?_) (fun _ _ => rfl) (fun x f g => ?_)
  · funext device schedule
    simp only [Functor.map]
    rcases x device schedule with ⟨device', _ | ⟨a, rest⟩⟩ <;> rfl
  · funext device schedule
    simp only [Bind.bind]
    rcases x device schedule with ⟨device', _ | ⟨a, rest⟩⟩ <;> rfl

/-- Run a program on a device. -/
def run (x : Driven Device Move α) (device : Device) (schedule : List (Turn Move)) :
    Device × Option (α × List (Turn Move)) := x device schedule

/-- A program whose first half returns. -/
theorem run_bind_some {x : Driven Device Move α} {f : α → Driven Device Move β}
    {device device' : Device} {schedule rest : List (Turn Move)} {a : α}
    (h : x.run device schedule = (device', some (a, rest))) :
    (x >>= f).run device schedule = (f a).run device' rest := by
  rw [run] at h
  simp only [run, Bind.bind, h]

section Accesses

variable (move : Device → Move → Device)

/-- One access: a value, and what the access does to the device. -/
def access (op : Device → α × Device) : Driven Device Move α
  | device, [] => (device, none)
  | device, .device m :: rest => access op (move device m) rest
  | device, .program :: rest => ((op device).2, some ((op device).1, rest))

/-- Read over and over, until the value is as wanted. -/
def await (op : Device → α × Device) (wanted : α → Bool) : Driven Device Move α
  | device, [] => (device, none)
  | device, .device m :: rest => await op wanted (move device m) rest
  | device, .program :: rest =>
      if wanted (op device).1 then ((op device).2, some ((op device).1, rest))
      else await op wanted (op device).2 rest

/-- Ask, and act where the answer is yes, over and over. It is asked next, or acted. -/
def whileDo (ask : Device → Bool × Device) (act : Device → Device) (granted : Bool) :
    Driven Device Move Unit
  | device, [] => (device, none)
  | device, .device m :: rest => whileDo ask act granted (move device m) rest
  | device, .program :: rest =>
      if granted then whileDo ask act false (act device) rest
      else if (ask device).1 then whileDo ask act true (ask device).2 rest
      else ((ask device).2, some ((), rest))

end Accesses

/-! ## The program logic -/

/-- Every move of the device is an allowed one. -/
def Within (allowed : Move → Prop) (schedule : List (Turn Move)) : Prop :=
  ∀ m, .device m ∈ schedule → allowed m

theorem Within.tail {allowed : Move → Prop} {turn : Turn Move} {schedule : List (Turn Move)}
    (h : Within allowed (turn :: schedule)) : Within allowed schedule :=
  fun m hm => h m (List.mem_cons_of_mem _ hm)

theorem Within.head {allowed : Move → Prop} {m : Move} {schedule : List (Turn Move)}
    (h : Within allowed (.device m :: schedule)) : allowed m := h m List.mem_cons_self

theorem Within.nil {allowed : Move → Prop} : Within allowed [] :=
  fun _ h => absurd h List.not_mem_nil

/-- From a device with `pre`, under any schedule of allowed moves, the program
returns with `post`, or is still under way with `during`. -/
def Triple (allowed : Move → Prop) (pre : Device → Prop) (x : Driven Device Move α)
    (post : α → Device → Prop) (during : Device → Prop) : Prop :=
  ∀ device, pre device → ∀ schedule, Within allowed schedule →
    match x.run device schedule with
    | (device', some (a, rest)) => post a device' ∧ Within allowed rest
    | (device', none) => during device'

namespace Triple

variable {allowed : Move → Prop} {pre pre' during during' : Device → Prop}
  {x : Driven Device Move α} {f : α → Driven Device Move β}

theorem conseq {post post' : α → Device → Prop} (h : Triple allowed pre x post during)
    (hpre : ∀ device, pre' device → pre device)
    (hpost : ∀ a device, post a device → post' a device)
    (hduring : ∀ device, during device → during' device) :
    Triple allowed pre' x post' during' := by
  intro device hdevice schedule hwithin
  have hout := h device (hpre _ hdevice) schedule hwithin
  cases hrun : x.run device schedule with
  | mk device' back? =>
      rw [hrun] at hout
      cases back? with
      | none => exact hduring _ hout
      | some back => exact ⟨hpost _ _ hout.1, hout.2⟩

theorem pure {post : α → Device → Prop} {a : α} (h : ∀ device, pre device → post a device) :
    Triple allowed pre (Pure.pure a) post during :=
  fun device hdevice _ hwithin => ⟨h device hdevice, hwithin⟩

theorem bind {middle : α → Device → Prop} {post : β → Device → Prop}
    (hx : Triple allowed pre x middle during)
    (hf : ∀ a, Triple allowed (middle a) (f a) post during) :
    Triple allowed pre (x >>= f) post during := by
  intro device hdevice schedule hwithin
  have hout := hx device hdevice schedule hwithin
  simp only [run, Bind.bind] at hout ⊢
  cases hrun : x device schedule with
  | mk device' back? =>
      rw [hrun] at hout
      cases back? with
      | none => exact hout
      | some back => exact hf _ device' hout.1 _ hout.2

/-- What holds of a program for two reasons. -/
theorem and {post post' : α → Device → Prop} (h : Triple allowed pre x post during)
    (h' : Triple allowed pre' x post' during') :
    Triple allowed (fun device => pre device ∧ pre' device) x
      (fun a device => post a device ∧ post' a device)
      (fun device => during device ∧ during' device) := by
  intro device hdevice schedule hwithin
  have hout := h device hdevice.1 schedule hwithin
  have hout' := h' device hdevice.2 schedule hwithin
  cases hrun : x.run device schedule with
  | mk device' back? =>
      rw [hrun] at hout hout'
      cases back? with
      | none => exact ⟨hout, hout'⟩
      | some back => exact ⟨⟨hout.1, hout'.1⟩, hout.2⟩

theorem ite {cond : Prop} [Decidable cond] {x y : Driven Device Move α}
    {post : α → Device → Prop}
    (hx : cond → Triple allowed pre x post during)
    (hy : ¬ cond → Triple allowed pre y post during) :
    Triple allowed pre (if cond then x else y) post during := by
  split
  next h => exact hx h
  next h => exact hy h

/-- A fact that does not concern the device is one about the program. -/
theorem of_and {cond : Prop} {post : α → Device → Prop}
    (h : cond → Triple allowed pre x post during) :
    Triple allowed (fun device => cond ∧ pre device) x post during :=
  fun device hdevice => h hdevice.1 device hdevice.2

/-- A program that is never reached. -/
theorem of_false {post : α → Device → Prop} :
    Triple allowed (fun _ => False) x post during :=
  fun _ hdevice => hdevice.elim

variable {move : Device → Move → Device}

/-- What holds before an access must survive the moves that come before it. -/
theorem access {op : Device → α × Device} {post : α → Device → Prop}
    (hmove : ∀ device m, allowed m → pre device → pre (move device m))
    (hduring : ∀ device, pre device → during device)
    (hop : ∀ device, pre device → post (op device).1 (op device).2) :
    Triple allowed pre (Driven.access move op) post during := by
  intro device hdevice schedule hwithin
  induction schedule generalizing device with
  | nil => exact hduring device hdevice
  | cons turn rest ih =>
      cases turn with
      | device m => exact ih _ (hmove device m hwithin.head hdevice) hwithin.tail
      | program => exact ⟨hop device hdevice, hwithin.tail⟩

/-- What a loop of reads starts from must survive them too. -/
theorem await {op : Device → α × Device} {wanted : α → Bool} {post : α → Device → Prop}
    (hmove : ∀ device m, allowed m → pre device → pre (move device m))
    (hduring : ∀ device, pre device → during device)
    (hloop : ∀ device, pre device → wanted (op device).1 = false → pre (op device).2)
    (hop : ∀ device, pre device → wanted (op device).1 = true → post (op device).1 (op device).2) :
    Triple allowed pre (Driven.await move op wanted) post during := by
  intro device hdevice schedule hwithin
  induction schedule generalizing device with
  | nil => exact hduring device hdevice
  | cons turn rest ih =>
      cases turn with
      | device m => exact ih _ (hmove device m hwithin.head hdevice) hwithin.tail
      | program =>
          rw [run, Driven.await]
          cases hwanted : wanted (op device).1 with
          | true =>
              rw [if_pos rfl]
              exact ⟨hop device hdevice hwanted, hwithin.tail⟩
          | false =>
              rw [if_neg Bool.false_ne_true]
              exact ih _ (hloop device hdevice hwanted) hwithin.tail

/-- What holds before it is asked and what holds before it is acted both survive. -/
theorem whileDo {ask : Device → Bool × Device} {act : Device → Device} {asked : Device → Prop}
    {post : Unit → Device → Prop}
    (hmove : ∀ device m, allowed m → pre device → pre (move device m))
    (hmove' : ∀ device m, allowed m → asked device → asked (move device m))
    (hduring : ∀ device, pre device → during device)
    (hduring' : ∀ device, asked device → during device)
    (hyes : ∀ device, pre device → (ask device).1 = true → asked (ask device).2)
    (hno : ∀ device, pre device → (ask device).1 = false → post () (ask device).2)
    (hact : ∀ device, asked device → pre (act device)) :
    Triple allowed pre (Driven.whileDo move ask act false) post during := by
  have hboth (granted : Bool) :
      Triple allowed (fun device => if granted = true then asked device else pre device)
        (Driven.whileDo move ask act granted) post during := by
    intro device hdevice schedule hwithin
    induction schedule generalizing granted device with
    | nil =>
        cases granted with
        | false => exact hduring device hdevice
        | true => exact hduring' device hdevice
    | cons turn rest ih =>
        cases turn with
        | device m =>
            refine ih granted _ ?_ hwithin.tail
            cases granted with
            | false => exact hmove device m hwithin.head hdevice
            | true => exact hmove' device m hwithin.head hdevice
        | program =>
            cases granted with
            | true => exact ih false _ (hact device hdevice) hwithin.tail
            | false =>
                rw [run, Driven.whileDo, if_neg Bool.false_ne_true]
                cases hask : (ask device).1 with
                | true =>
                    rw [if_pos rfl]
                    exact ih true _ (hyes device hdevice hask) hwithin.tail
                | false =>
                    rw [if_neg Bool.false_ne_true]
                    exact ⟨hno device hdevice hask, hwithin.tail⟩
  exact hboth false

end Triple

end Driven
