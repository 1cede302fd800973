import Mathlib.Data.List.Forall2
import Mathlib.Data.List.Induction
import OtaBoot.Foundation.Transition

/-!
# Programs under interrupts

Programs as trees of single memory accesses. An interrupt handler runs between
any two accesses, never within one. Of a processor the calls are seen, what they
return, and the interrupts, each with the memory it finds. Programs that refine
a model of the memory answer as the model does, whatever interrupts them.
-/

namespace Interrupts

/-- A program over a memory: its next access, or the value it returns. -/
inductive Code (Memory : Type) (α : Type) where
  | done (value : α)
  | load (rest : Memory → Code Memory α)
  | store (write : Memory → Memory) (rest : Code Memory α)

namespace Code

variable {Memory α β : Type}

/-- One program, and then another with its result. -/
def bind (next : α → Code Memory β) : Code Memory α → Code Memory β
  | done value => next value
  | load rest => load fun memory => (rest memory).bind next
  | store write rest => store write (rest.bind next)

instance : Monad (Code Memory) where
  pure := done
  bind code next := code.bind next

/-- Load one thing. -/
def get (read : Memory → α) : Code Memory α := load fun memory => done (read memory)

/-- Store one thing. -/
def set (write : Memory → Memory) : Code Memory Unit := store write (done ())

/-- One memory access. -/
def access (memory : Memory) : Code Memory α → Memory × Code Memory α
  | load rest => (memory, rest memory)
  | store write rest => (write memory, rest)
  | done value => (memory, done value)

/-- The program has returned. -/
def Returned : Code Memory α → Prop
  | done _ => True
  | _ => False

end Code

/-! ## The machine -/

/-- What is seen of a processor. -/
inductive Report (Memory Interrupt Call Result : Type) where
  | interrupted (cause : Interrupt) (memory : Memory)
  | called (which : Call) (memory : Memory)
  | returned (which : Call) (result : Result) (memory : Memory)

/-- A processor: its memory, what is left of the call under way, and what was
seen. -/
structure Processor (Memory Interrupt Call Result : Type) where
  memory : Memory
  underWay : Option (Call × Code Memory Result)
  seen : List (Report Memory Interrupt Call Result)

/-- What happens next: an interrupt, an access of the call under way, or the next
call. -/
inductive Event (Interrupt Call : Type) where
  | interrupt (cause : Interrupt)
  | access
  | call (which : Call)

section Machine

variable {Memory Interrupt Call Result : Type}

/-- A call goes on until it returns. -/
def Processor.proceed (c : Processor Memory Interrupt Call Result) (which : Call) :
    Code Memory Result → Processor Memory Interrupt Call Result
  | .done result =>
      { c with underWay := none, seen := c.seen ++ [.returned which result c.memory] }
  | code => { c with underWay := some (which, code) }

/-- One step. There is no access after a return, and no call before one. -/
def step (handler : Interrupt → Memory → Memory) (body : Call → Code Memory Result)
    (c : Processor Memory Interrupt Call Result) :
    Event Interrupt Call → Processor Memory Interrupt Call Result
  | .interrupt cause =>
      { c with
        memory := handler cause c.memory
        seen := c.seen ++ [.interrupted cause c.memory] }
  | .access =>
      match c.underWay with
      | none => c
      | some (which, code) =>
          { c with memory := (code.access c.memory).1 }.proceed which (code.access c.memory).2
  | .call which =>
      match c.underWay with
      | none =>
          { c with seen := c.seen ++ [Report.called which c.memory] }.proceed which (body which)
      | some _ => c

end Machine

/-! ## Refinement -/

section Refinement

variable {Memory Model α β : Type} (inv : Memory → Model → Prop)
  (disturbed : Memory → Model → Memory → Model → Prop) (takes : Model → Model → Prop)

/-- Whatever interrupts come between its accesses, the invariant holds at each of
them, what the program stores does to the model what it may, and it returns with
what is asked for. -/
def Code.Refines (post : α → Memory → Model → Prop) : Code Memory α → Memory → Model → Prop
  | .done value, memory, model => post value memory model
  | .load rest, memory, model => inv memory model ∧ ∀ memory' model',
      disturbed memory model memory' model' → (rest memory').Refines post memory' model'
  | .store write rest, memory, model => inv memory model ∧ ∀ memory' model',
      disturbed memory model memory' model' →
        ∃ model'', takes model' model'' ∧ rest.Refines post (write memory') model''

variable {inv disturbed takes} {post post' : α → Memory → Model → Prop} {memory : Memory}
  {model : Model}

namespace Code.Refines

theorem bind {code : Code Memory α} {next : α → Code Memory β} {post' : β → Memory → Model → Prop}
    (h : code.Refines inv disturbed takes
      (fun value => (next value).Refines inv disturbed takes post') memory model) :
    (code >>= next).Refines inv disturbed takes post' memory model := by
  change (code.bind next).Refines inv disturbed takes post' memory model
  induction code generalizing memory model with
  | done value => exact h
  | load rest ih =>
      refine ⟨h.1, ?_⟩
      intro memory' model' hdisturbed
      exact ih memory' (h.2 memory' model' hdisturbed)
  | store write rest ih =>
      refine ⟨h.1, ?_⟩
      intro memory' model' hdisturbed
      obtain ⟨model'', htakes, hrest⟩ := h.2 memory' model' hdisturbed
      exact ⟨model'', htakes, ih hrest⟩

theorem mono {code : Code Memory α} (h : code.Refines inv disturbed takes post memory model)
    (hpost : ∀ value memory model, post value memory model → post' value memory model) :
    code.Refines inv disturbed takes post' memory model := by
  induction code generalizing memory model with
  | done value => exact hpost value memory model h
  | load rest ih =>
      refine ⟨h.1, ?_⟩
      intro memory' model' hdisturbed
      exact ih memory' (h.2 memory' model' hdisturbed)
  | store write rest ih =>
      refine ⟨h.1, ?_⟩
      intro memory' model' hdisturbed
      obtain ⟨model'', htakes, hrest⟩ := h.2 memory' model' hdisturbed
      exact ⟨model'', htakes, ih hrest⟩

theorem get {read : Memory → α} (hinv : inv memory model)
    (h : ∀ memory' model', disturbed memory model memory' model' →
      post (read memory') memory' model') :
    (Code.get read : Code Memory α).Refines inv disturbed takes post memory model :=
  ⟨hinv, h⟩

theorem set {write : Memory → Memory} {post : Unit → Memory → Model → Prop}
    (hinv : inv memory model)
    (h : ∀ memory' model', disturbed memory model memory' model' →
      ∃ model'', takes model' model'' ∧ post () (write memory') model'') :
    (Code.set write : Code Memory Unit).Refines inv disturbed takes post memory model :=
  ⟨hinv, h⟩

theorem pure {value : α} (h : post value memory model) :
    (Pure.pure value : Code Memory α).Refines inv disturbed takes post memory model := h

/-- The invariant holds wherever a program stands. -/
theorem holds {code : Code Memory α} (h : code.Refines inv disturbed takes post memory model)
    (hpost : ∀ value, post value memory model → inv memory model) : inv memory model := by
  cases code with
  | done value => exact hpost value h
  | load | store => exact h.1

end Code.Refines

end Refinement

/-! ## Runs -/

section Runs

variable {Memory Interrupt Call Result Model : Type}
  (handler : Interrupt → Memory → Memory) (inv : Memory → Model → Prop)
  (disturbed : Memory → Model → Memory → Model → Prop) (takes : Model → Model → Prop)
  (hits : Interrupt → Memory → Model → Model → Prop)
  (answers : Call → Model → Result → Model → Prop)

/-- Disturbances are what interrupts do, any number of them. -/
structure Disturbs : Prop where
  refl : ∀ {memory model}, inv memory model → disturbed memory model memory model
  trans : ∀ {memory model memory' model' memory'' model''},
    disturbed memory model memory' model' → disturbed memory' model' memory'' model'' →
      disturbed memory model memory'' model''
  holds : ∀ {memory model memory' model'}, disturbed memory model memory' model' →
    inv memory' model'
  interrupt : ∀ cause {memory model}, inv memory model →
    ∃ model', hits cause memory model model' ∧ disturbed memory model (handler cause memory) model'

/-- What was seen is told of the model: what it was when the call under way was
made, and what it is. -/
inductive Told (first : Model) :
    List (Report Memory Interrupt Call Result) → Option (Call × Model) → Model → Prop
  | start : Told first [] none first
  | interrupted {seen : List (Report Memory Interrupt Call Result)} {task : Option (Call × Model)}
      {cause : Interrupt} {memory : Memory} {model model' : Model} (h : Told first seen task model)
      (hinv : inv memory model) (hhits : hits cause memory model model') :
      Told first (seen ++ [.interrupted cause memory]) task model'
  | called {seen : List (Report Memory Interrupt Call Result)} {which : Call} {memory : Memory}
      {model : Model} (h : Told first seen none model) (hinv : inv memory model) :
      Told first (seen ++ [.called which memory]) (some (which, model)) model
  | took {seen : List (Report Memory Interrupt Call Result)} {which : Call}
      {before model model' : Model} (h : Told first seen (some (which, before)) model)
      (htakes : takes model model') : Told first seen (some (which, before)) model'
  | returned {seen : List (Report Memory Interrupt Call Result)} {which : Call} {memory : Memory}
      {before model : Model} {result : Result} (h : Told first seen (some (which, before)) model)
      (hinv : inv memory model) (hanswers : answers which before result model) :
      Told first (seen ++ [.returned which result memory]) none model

/-- Where the call under way stands. -/
structure Standing (which : Call) (before : Model) (code : Code Memory Result) (memory : Memory)
    (model : Model) : Prop where
  pending : ¬ code.Returned
  refines : code.Refines inv disturbed takes
    (fun result memory model => inv memory model ∧ answers which before result model) memory model

/-- What was seen of the processor is told of the model, which its memory is in step
with. -/
def Follows (first : Model) (c : Processor Memory Interrupt Call Result) : Prop :=
  match c.underWay with
  | none => ∃ model, Told inv takes hits answers first c.seen none model ∧ inv c.memory model
  | some (which, code) => ∃ before model,
      Told inv takes hits answers first c.seen (some (which, before)) model ∧
        Standing inv disturbed takes answers which before code c.memory model

variable {handler inv disturbed takes hits answers} {first before model : Model}
  {c : Processor Memory Interrupt Call Result} {which : Call} {code : Code Memory Result}

/-- A call that refines goes on, or returns with an answer. -/
theorem follows_proceed
    (htold : Told inv takes hits answers first c.seen (some (which, before)) model)
    (hrefines : code.Refines inv disturbed takes
      (fun result memory model => inv memory model ∧ answers which before result model)
      c.memory model) :
    Follows inv disturbed takes hits answers first (c.proceed which code) := by
  cases code with
  | done result => exact ⟨model, .returned htold hrefines.1 hrefines.2, hrefines.1⟩
  | load | store => exact ⟨before, model, htold, id, hrefines⟩

theorem Standing.holds {memory : Memory}
    (h : Standing inv disturbed takes answers which before code memory model) : inv memory model :=
  h.refines.holds fun _ hpost => hpost.1

/-- A disturbance takes nothing from a call under way. -/
theorem Standing.of_disturbed {memory memory' : Memory} {model' : Model}
    (hdisturbs : Disturbs handler inv disturbed hits)
    (h : Standing inv disturbed takes answers which before code memory model)
    (hdisturbed : disturbed memory model memory' model') :
    Standing inv disturbed takes answers which before code memory' model' := by
  obtain ⟨hpending, hrefines⟩ := h
  refine ⟨hpending, ?_⟩
  cases code with
  | done => exact absurd trivial hpending
  | load | store =>
      refine ⟨hdisturbs.holds hdisturbed, ?_⟩
      intro memory'' model'' hnext
      exact hrefines.2 _ _ (hdisturbs.trans hdisturbed hnext)

theorem follows_step (hdisturbs : Disturbs handler inv disturbed hits)
    {body : Call → Code Memory Result}
    (hbody : ∀ which memory model, inv memory model → (body which).Refines inv disturbed takes
      (fun result memory' model' => inv memory' model' ∧ answers which model result model')
      memory model)
    (h : Follows inv disturbed takes hits answers first c) (event : Event Interrupt Call) :
    Follows inv disturbed takes hits answers first (step handler body c event) := by
  obtain ⟨memory, underWay, seen⟩ := c
  cases event with
  | interrupt cause =>
      cases underWay with
      | none =>
          obtain ⟨model, htold, hinv⟩ := h
          obtain ⟨model', hhits, hdisturbed⟩ := hdisturbs.interrupt cause hinv
          exact ⟨model', .interrupted htold hinv hhits, hdisturbs.holds hdisturbed⟩
      | some task =>
          obtain ⟨before, model, htold, hstanding⟩ := h
          obtain ⟨model', hhits, hdisturbed⟩ := hdisturbs.interrupt cause hstanding.holds
          exact ⟨before, model', .interrupted htold hstanding.holds hhits,
            hstanding.of_disturbed hdisturbs hdisturbed⟩
  | access =>
      cases underWay with
      | none => exact h
      | some task =>
          obtain ⟨which, code⟩ := task
          obtain ⟨before, model, htold, hpending, hrefines⟩ := h
          cases code with
          | done => exact absurd trivial hpending
          | load rest => exact follows_proceed htold (hrefines.2 _ _ (hdisturbs.refl hrefines.1))
          | store write rest =>
              obtain ⟨model', htakes, hrest⟩ := hrefines.2 _ _ (hdisturbs.refl hrefines.1)
              exact follows_proceed (.took htold htakes) hrest
  | call which =>
      cases underWay with
      | none =>
          obtain ⟨model, htold, hinv⟩ := h
          exact follows_proceed (.called htold hinv) (hbody which memory model hinv)
      | some task => exact h

/-- Calls that refine the model, one after the other under any interrupts, answer
as the model does. -/
theorem follows_run (hdisturbs : Disturbs handler inv disturbed hits)
    {body : Call → Code Memory Result}
    (hbody : ∀ which memory model, inv memory model → (body which).Refines inv disturbed takes
      (fun result memory' model' => inv memory' model' ∧ answers which model result model')
      memory model)
    {memory : Memory} (hinv : inv memory first) (events : List (Event Interrupt Call)) :
    Follows inv disturbed takes hits answers first
      (Transition.run (step handler body) ⟨memory, none, []⟩ events) := by
  have hfree : Transition.Guarded (step handler body) (fun _ _ => True) ⟨memory, none, []⟩ events :=
    Transition.Guarded.of_forall (fun _ _ => trivial) _
  refine Transition.invariant_run (step handler body)
    (Follows inv disturbed takes hits answers first) ?_ ⟨first, .start, hinv⟩ hfree
  intro c event h _
  exact follows_step hdisturbs hbody h event

end Runs

/-! ## What was seen -/

section Seen

variable {Memory Interrupt Call Result Model β : Type}

/-- What the interrupts that were seen bring together. -/
def gathered (counted : Interrupt → Memory → List β)
    (seen : List (Report Memory Interrupt Call Result)) : List β :=
  seen.flatMap fun
    | .interrupted cause memory => counted cause memory
    | _ => []

/-- The calls that have returned, and what they returned. -/
def results (seen : List (Report Memory Interrupt Call Result)) : List (Call × Result) :=
  seen.filterMap fun
    | .returned which result _ => some (which, result)
    | _ => none

/-- Nothing but interrupts was seen. -/
def Interruptions (seen : List (Report Memory Interrupt Call Result)) : Prop :=
  ∀ report ∈ seen, ∃ cause memory, report = .interrupted cause memory

theorem Interruptions.front {seen : List (Report Memory Interrupt Call Result)}
    {report : Report Memory Interrupt Call Result} (h : Interruptions (seen ++ [report])) :
    Interruptions seen := fun _ hmem => h _ (List.mem_append_left _ hmem)

theorem Interruptions.last {seen : List (Report Memory Interrupt Call Result)}
    {report : Report Memory Interrupt Call Result} (h : Interruptions (seen ++ [report])) :
    ∃ cause memory, report = .interrupted cause memory :=
  h report (List.mem_append_right _ (List.mem_singleton_self _))

variable {inv : Memory → Model → Prop} {takes : Model → Model → Prop}
  {hits : Interrupt → Memory → Model → Model → Prop}
  {answers : Call → Model → Result → Model → Prop} {first model : Model}
  {seen notes : List (Report Memory Interrupt Call Result)}
  {report : Report Memory Interrupt Call Result} {task : Option (Call × Model)} {which : Call}
  {result : Result} {cause : Interrupt} {memory : Memory}

/-! ### The last report -/

/-- What was seen before the last report is told, too. -/
theorem Told.before (h : Told inv takes hits answers first (seen ++ [report]) task model) :
    ∃ task' model', Told inv takes hits answers first seen task' model' := by
  generalize hseen : seen ++ [report] = all at h
  induction h with
  | start => exact absurd hseen (List.concat_ne_nil _ _)
  | took _ _ ih => exact ih hseen
  | interrupted h | called h | returned h =>
      obtain rfl := List.append_inj_left' hseen rfl
      exact ⟨_, _, h⟩

/-- Of what was seen any front is told. -/
theorem Told.front (back : List (Report Memory Interrupt Call Result))
    (h : Told inv takes hits answers first (seen ++ back) task model) :
    ∃ task' model', Told inv takes hits answers first seen task' model' := by
  induction back using List.reverseRecOn generalizing task model with
  | nil =>
      rw [List.append_nil] at h
      exact ⟨task, model, h⟩
  | append_singleton back report ih =>
      rw [← List.append_assoc] at h
      obtain ⟨task', model', h'⟩ := h.before
      exact ih h'

theorem Told.last_returned
    (h : Told inv takes hits answers first (seen ++ [.returned which result memory]) task model) :
    task = none ∧ inv memory model ∧ ∃ before,
      Told inv takes hits answers first seen (some (which, before)) model ∧
        answers which before result model := by
  generalize hseen : seen ++ [.returned which result memory] = all at h
  induction h with
  | start => exact absurd hseen (List.concat_ne_nil _ _)
  | took _ _ ih => exact absurd (ih hseen).1 (Option.some_ne_none _)
  | interrupted | called => cases List.append_inj_right' hseen rfl
  | returned h hinv hanswers =>
      cases List.append_inj_right' hseen rfl
      obtain rfl := List.append_inj_left' hseen rfl
      exact ⟨rfl, hinv, _, h, hanswers⟩

/-! ### Tallies -/

section Tallies

variable (tally : Model → List β) {counted : Interrupt → Memory → List β}

theorem gathered_interrupted (cause : Interrupt) (memory : Memory) :
    gathered counted (seen ++ [.interrupted cause memory]) =
      gathered counted seen ++ counted cause memory := by
  simp [gathered]

theorem gathered_called (which : Call) (memory : Memory) :
    gathered counted (seen ++ [.called which memory]) = gathered counted seen := by
  simp [gathered]

theorem gathered_returned (which : Call) (result : Result) (memory : Memory) :
    gathered counted (seen ++ [.returned which result memory]) = gathered counted seen := by
  simp [gathered]

/-- A tally that only interrupts add to is what they bring together. -/
theorem Told.gathered_eq (h : Told inv takes hits answers first seen task model)
    (htakes : ∀ {model model' : Model}, takes model model' → tally model' = tally model)
    (hhits : ∀ {cause memory} {model model' : Model}, hits cause memory model model' →
      tally model' = tally model ++ counted cause memory) :
    tally model = tally first ++ gathered counted seen := by
  induction h with
  | start => exact (List.append_nil _).symm
  | interrupted _ _ hhit ih => rw [hhits hhit, ih, gathered_interrupted, List.append_assoc]
  | called _ _ ih => rw [ih, gathered_called]
  | returned _ _ _ ih => rw [ih, gathered_returned]
  | took _ htake ih => rw [htakes htake, ih]

/-- Since a call was made, with interrupts only to be seen, its task is under way. -/
theorem Told.since_called
    (h : Told inv takes hits answers first (seen ++ .called which memory :: notes) task model)
    (hnotes : Interruptions notes)
    (htakes : ∀ {model model' : Model}, takes model model' → tally model' = tally model)
    (hhits : ∀ {cause memory} {model model' : Model}, hits cause memory model model' →
      tally model' = tally model ++ counted cause memory) :
    ∃ before, task = some (which, before) ∧ inv memory before ∧
      tally model = tally before ++ gathered counted notes := by
  generalize hall : seen ++ .called which memory :: notes = all at h
  induction h generalizing notes with
  | start => cases List.append_eq_nil_iff.mp hall with | intro _ h => cases h
  | took _ htake ih =>
      obtain ⟨before, htask, hinv, htally⟩ := ih hnotes hall
      exact ⟨before, htask, hinv, (htakes htake).trans htally⟩
  | @interrupted _ _ cause₁ memory₁ _ _ _ _ hhit ih =>
      rcases List.eq_nil_or_concat notes with rfl | ⟨notes, report, rfl⟩
      · cases List.append_inj_right' hall rfl
      · rw [List.concat_eq_append, ← List.cons_append, ← List.append_assoc] at hall
        obtain ⟨before, htask, hinv, htally⟩ := ih
          (Interruptions.front (List.concat_eq_append ▸ hnotes)) (List.append_inj_left' hall rfl)
        cases List.append_inj_right' hall rfl
        refine ⟨before, htask, hinv, ?_⟩
        rw [hhits hhit, htally, List.concat_eq_append, gathered_interrupted, List.append_assoc]
  | called _ hinv ih =>
      rcases List.eq_nil_or_concat notes with rfl | ⟨notes, report, rfl⟩
      · cases List.append_inj_right' hall rfl
        exact ⟨_, rfl, hinv, (List.append_nil _).symm⟩
      · obtain ⟨cause, memory, rfl⟩ := Interruptions.last (List.concat_eq_append ▸ hnotes)
        rw [List.concat_eq_append, ← List.cons_append, ← List.append_assoc] at hall
        cases List.append_inj_right' hall rfl
  | returned _ _ _ ih =>
      rcases List.eq_nil_or_concat notes with rfl | ⟨notes, report, rfl⟩
      · cases List.append_inj_right' hall rfl
      · obtain ⟨cause, memory, rfl⟩ := Interruptions.last (List.concat_eq_append ▸ hnotes)
        rw [List.concat_eq_append, ← List.cons_append, ← List.append_assoc] at hall
        cases List.append_inj_right' hall rfl

/-- A call that has returned has answered, as the model was when it was made and
with what interrupts have brought since. -/
theorem Told.answered {memory' : Memory} {back : List (Report Memory Interrupt Call Result)}
    (h : Told inv takes hits answers first
      (seen ++ .called which memory :: (notes ++ .returned which result memory' :: back)) task
      model)
    (hnotes : Interruptions notes)
    (htakes : ∀ {model model' : Model}, takes model model' → tally model' = tally model)
    (hhits : ∀ {cause memory} {model model' : Model}, hits cause memory model model' →
      tally model' = tally model ++ counted cause memory) :
    ∃ before after, inv memory before ∧ inv memory' after ∧
      tally after = tally before ++ gathered counted notes ∧ answers which before result after := by
  have hsplit : seen ++ .called which memory :: (notes ++ .returned which result memory' :: back) =
      seen ++ .called which memory :: notes ++ [.returned which result memory'] ++ back := by
    simp only [List.append_assoc, List.cons_append, List.nil_append]
  rw [hsplit] at h
  obtain ⟨task', after, h'⟩ := h.front
  obtain ⟨-, hinv', before, htold, hanswers⟩ := h'.last_returned
  obtain ⟨before', htask, hinv, htally⟩ := htold.since_called tally hnotes htakes hhits
  obtain rfl : before = before' := congrArg Prod.snd (Option.some.inj htask)
  exact ⟨before, after, hinv, hinv', htally, hanswers⟩

end Tallies

/-! ### Batches -/

/-- What the calls that have returned took, each its batch, and after it what the
call under way has taken. -/
theorem Told.batches (taken : Model → List β) {fits : Call × Result → List β → Prop}
    (h : Told inv takes hits answers first seen task model)
    (htakes : ∀ {model model' : Model}, takes model model' → taken model <+: taken model')
    (hhits : ∀ {cause memory} {model model' : Model}, hits cause memory model model' →
      taken model' = taken model)
    (hanswers : ∀ {which result} {before after : Model}, answers which before result after →
      ∃ batch, taken after = taken before ++ batch ∧ fits (which, result) batch) :
    ∃ batches inHand, taken model = taken first ++ batches.flatten ++ inHand ∧
      List.Forall₂ fits (results seen) batches ∧ (task = none → inHand = []) ∧
      ∀ which before, task = some (which, before) →
        taken before = taken first ++ batches.flatten := by
  induction h with
  | start => exact ⟨[], [], by simp, .nil, fun _ => rfl, nofun⟩
  | interrupted _ _ hhit ih =>
      obtain ⟨batches, inHand, htaken, hfits, hnone, hsome⟩ := ih
      refine ⟨batches, inHand, (hhits hhit).trans htaken, ?_, hnone, hsome⟩
      simpa [results] using hfits
  | called _ _ ih =>
      obtain ⟨batches, inHand, htaken, hfits, hnone, -⟩ := ih
      obtain rfl := hnone rfl
      rw [List.append_nil] at htaken
      refine ⟨batches, [], by rw [htaken, List.append_nil], ?_, fun _ => rfl, ?_⟩
      · simpa [results] using hfits
      · intro which before h
        cases h
        exact htaken
  | took _ htake ih =>
      obtain ⟨batches, inHand, htaken, hfits, -, hsome⟩ := ih
      obtain ⟨more, hmore⟩ := htakes htake
      refine ⟨batches, inHand ++ more, ?_, hfits, nofun, hsome⟩
      rw [← hmore, htaken, List.append_assoc]
  | returned _ _ hanswer ih =>
      obtain ⟨batches, inHand, -, hfits, -, hsome⟩ := ih
      obtain ⟨batch, hbatch, hfit⟩ := hanswers hanswer
      refine ⟨batches ++ [batch], [], ?_, ?_, fun _ => rfl, nofun⟩
      · rw [hbatch, hsome _ _ rfl]
        simp
      · rw [results, List.filterMap_append]
        exact List.rel_append hfits (.cons hfit .nil)

end Seen

end Interrupts
