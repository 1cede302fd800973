import Mathlib.Data.List.Chain
import OtaBoot.Gateway.Esp32Ota

/-!
# What goes through the gateway

Whatever the libraries answer, the sketch serves one client after the other, and while
it serves a client it passes on what it has read on either side: all of it, in order,
at once, and nothing else. A pass that finds the client there asks both sides.
-/

namespace OtaBoot.Gateway

open Driven (Triple)

variable {World Client : Type}

/-! ## Sessions -/

namespace Call

/-- What was read from a client. -/
def fetched : Call Client → List UInt8
  | .read _ _ answer => answer
  | _ => []

def passedOut : Call Client → List UInt8
  | .serialWrite buf => buf
  | _ => []

/-- What was read from the UART. -/
def drawn : Call Client → List UInt8
  | .serialRead answer => answer.toList
  | .serialReadBytes _ answer => answer
  | _ => []

def passedBack : Call Client → List UInt8
  | .write _ buf => buf
  | _ => []

/-- No other client is read or written, and no more is asked for than the buffer holds. -/
def Serves (client : Client) : Call Client → Prop
  | .read client' n _ => client' = client ∧ 0 < n ∧ n ≤ bufSize
  | .write client' _ => client' = client
  | .serialReadBytes n _ => 0 < n ∧ n ≤ bufSize
  | _ => True

def AsksUart (call : Call Client) : Prop := ∃ n, call = .serialAvailable n

/-- What may come next, for the client that is served. What is there on either side is
fetched, and what was fetched is passed on. -/
def Leads (client : Client) : Call Client → Call Client → Prop
  | .available _ n =>
      if n > 0 then fun next => ∃ got, next = .read client (clamp n) got else AsksUart
  | .read _ _ got => if got.length > 0 then fun next => next = .serialWrite got else AsksUart
  | .serialWrite _ => AsksUart
  | .serialAvailable n =>
      if n > 0 then fun next => ∃ got, next = .serialReadBytes (clamp n) got else fun _ => True
  | .serialReadBytes _ got =>
      if got.length > 0 then fun next => next = .write client got else fun _ => True
  | _ => fun _ => True

/-- The client is asked for bytes, or is found not to be there. -/
def settles [DecidableEq Client] (client : Client) : Call Client → Bool
  | .available client' _ => client' = client
  | .holds client' answer => client' = client && !answer
  | .connected client' answer => client' = client && !answer
  | _ => false

section Settles

variable [DecidableEq Client] (client : Client)

@[simp] theorem settles_available (n : Int) : (available client n).settles client = true :=
  decide_eq_true rfl

@[simp] theorem settles_holds (answer : Bool) : (holds client answer).settles client = !answer := by
  simp [settles]

@[simp] theorem settles_connected (answer : Bool) :
    (connected client answer).settles client = !answer := by
  simp [settles]

end Settles

/-- Nothing is passed on, and nothing fetched that would have to be. -/
def Idle : Call Client → Prop
  | .read _ _ _ | .write _ _ | .serialReadBytes _ _ | .serialWrite _ => False
  | _ => True

end Call

/-- The calls for one client: those from its acceptance on, until the UART has nothing left
from before, and those after that. -/
structure ClientSession (Client : Type) where
  client : Client
  opening : List (Call Client)
  serving : List (Call Client)

namespace ClientSession

def calls (s : ClientSession Client) : List (Call Client) := s.opening ++ s.serving

structure Opens (s : ClientSession Client) : Prop where
  handed : s.opening.head? = some (.serverAvailable s.client)
  idle : ∀ call ∈ s.opening, call.Idle
  drained : s.serving ≠ [] → s.opening.getLast? = some (.serialAvailable 0)

/-- What was read on each side was passed on to the other, but for what is in hand. -/
structure Pipes (s : ClientSession Client) (hand handBack : List UInt8) : Prop where
  serves : ∀ call ∈ s.serving, call.Serves s.client
  prompt : s.serving.IsChain (Call.Leads s.client)
  out : s.serving.flatMap Call.fetched = s.serving.flatMap Call.passedOut ++ hand
  back : s.serving.flatMap Call.drawn = s.serving.flatMap Call.passedBack ++ handBack

/-- Anything may come next. -/
def Done (s : ClientSession Client) : Prop :=
  ∀ call ∈ s.serving.getLast?, ∀ next, call.Leads s.client next

/-- One more call for the client. -/
theorem Pipes.call {s : ClientSession Client} {next : Call Client}
    {hand hand' handBack handBack' : List UInt8} (h : s.Pipes hand handBack)
    (hleads : ∀ call ∈ s.serving.getLast?, call.Leads s.client next)
    (hserves : next.Serves s.client) (hout : hand ++ next.fetched = next.passedOut ++ hand')
    (hback : handBack ++ next.drawn = next.passedBack ++ handBack') :
    { s with serving := s.serving ++ [next] }.Pipes hand' handBack' := by
  refine {
    serves := ?_
    prompt := ?_
    out := ?_
    back := ?_ }
  · simpa only [List.forall_mem_append, List.mem_singleton, forall_eq] using ⟨h.serves, hserves⟩
  · refine h.prompt.append (List.isChain_singleton next) fun call hcall after hafter => ?_
    cases hafter
    exact hleads call hcall
  · rw [List.flatMap_append, List.flatMap_append, h.out, List.flatMap_singleton,
      List.flatMap_singleton, List.append_assoc, hout, List.append_assoc]
  · rw [List.flatMap_append, List.flatMap_append, h.back, List.flatMap_singleton,
      List.flatMap_singleton, List.append_assoc, hback, List.append_assoc]

end ClientSession

/-- All calls, session by session. The first session is that of the client which the sketch
starts with, and only the last may have something in hand or due. -/
structure Apart (initial : Client) (record : List (Call Client))
    (former : List (ClientSession Client)) (now : ClientSession Client)
    (hand handBack : List UInt8) : Prop where
  record : record = (former ++ [now]).flatMap ClientSession.calls
  first : ∀ s ∈ (former ++ [now]).head?, s.client = initial ∧ s.opening = []
  opens : ∀ s ∈ (former ++ [now]).tail, s.Opens
  pipes : ∀ s ∈ former, s.Pipes [] [] ∧ s.Done
  pipesNow : now.Pipes hand handBack

section Steps

variable [DecidableEq Client]

/-- How often the clients were asked for bytes, or found not to be there, each in its
session. -/
def settled (sessions : List (ClientSession Client)) : Nat :=
  (sessions.flatMap fun s => s.serving.filter (Call.settles s.client)).length

theorem settled_concat (former : List (ClientSession Client)) (now : ClientSession Client) :
    settled (former ++ [now]) = settled former + now.serving.countP (Call.settles now.client) := by
  rw [settled, List.flatMap_append, List.length_append, List.flatMap_singleton,
    List.countP_eq_length_filter, settled]

/-- A client is served, and what is `due` may come next; so many passes are settled. -/
def Serving (initial client : Client) (hand handBack : List UInt8) (due : Call Client → Prop)
    (passes : Nat) (record : List (Call Client)) : Prop :=
  ∃ former now, Apart initial record former now hand handBack ∧ now.client = client ∧
    (former = [] ∨ now.opening.getLast? = some (.serialAvailable 0)) ∧
    (∀ call ∈ now.serving.getLast?, ∀ next, due next → call.Leads client next) ∧
    passes ≤ settled (former ++ [now])

/-- A client was handed out, and nothing was passed on since. -/
def Opening (initial client : Client) (passes : Nat) (record : List (Call Client)) : Prop :=
  ∃ front back former now, record = front ++ back ∧ Apart initial front former now [] [] ∧
    now.Done ∧ passes ≤ settled (former ++ [now]) ∧
    back.head? = some (.serverAvailable client) ∧ ∀ call ∈ back, call.Idle

variable {initial client incoming : Client} {record : List (Call Client)} {next : Call Client}
  {hand hand' handBack handBack' : List UInt8} {due : Call Client → Prop} {passes passes' : Nat}

theorem Serving.less {more : Nat}
    (h : Serving initial client hand handBack due (passes + more) record) :
    Serving initial client hand handBack due passes record := by
  obtain ⟨former, now, hapart, hclient, hready, hlast, hpasses⟩ := h
  exact ⟨former, now, hapart, hclient, hready, hlast, Nat.le_of_add_right_le hpasses⟩

/-- One more call for the client. -/
theorem Serving.call (h : Serving initial client hand handBack due passes record)
    (hdue : due next) (hserves : next.Serves client)
    (hout : hand ++ next.fetched = next.passedOut ++ hand')
    (hback : handBack ++ next.drawn = next.passedBack ++ handBack')
    (hsettles : passes' ≤ passes + (next.settles client).toNat) :
    Serving initial client hand' handBack' (next.Leads client) passes' (record ++ [next]) := by
  obtain ⟨former, now, hapart, rfl, hready, hlast, hpasses⟩ := h
  have hnext (call : Call Client) (hcall : call ∈ now.serving.getLast?) :
      call.Leads now.client next := hlast call hcall next hdue
  refine ⟨former, { now with serving := now.serving ++ [next] }, ?_, rfl, hready, ?_, ?_⟩
  · refine {
      record := ?_
      first := ?_
      opens := ?_
      pipes := hapart.pipes
      pipesNow := hapart.pipesNow.call hnext hserves hout hback }
    · rw [hapart.record]
      simp [ClientSession.calls]
    · have hfirst := hapart.first
      cases former with
      | nil =>
          rintro s ⟨⟩
          exact hfirst now rfl
      | cons s former => exact hfirst
    · have hopens := hapart.opens
      cases former with
      | nil =>
          intro s hs
          cases hs
      | cons first former =>
          simp only [List.cons_append, List.tail_cons, List.forall_mem_append, List.mem_singleton,
            forall_eq] at hopens ⊢
          refine ⟨hopens.1, hopens.2.handed, hopens.2.idle, fun _ => ?_⟩
          exact hready.resolve_left (List.cons_ne_nil _ _)
  · intro call hcall
    rw [List.getLast?_concat] at hcall
    cases hcall
    exact fun _ hafter => hafter
  · refine hsettles.trans ?_
    rw [settled_concat] at hpasses ⊢
    rw [List.countP_append, List.countP_singleton, ← Nat.add_assoc]
    cases next.settles now.client with
    | false => exact hpasses
    | true => exact Nat.succ_le_succ hpasses

theorem Opening.idle (h : Opening initial client passes record) (hidle : next.Idle) :
    Opening initial client passes (record ++ [next]) := by
  obtain ⟨front, back, former, now, rfl, hfront, hdone, hpasses, hhanded, hback⟩ := h
  refine ⟨front, back ++ [next], former, now, List.append_assoc _ _ _, hfront, hdone, hpasses,
    ?_, ?_⟩
  · rw [List.head?_append, hhanded]
    rfl
  · simpa only [List.forall_mem_append, List.mem_singleton, forall_eq] using ⟨hback, hidle⟩

/-- The session that is being opened is the last of all. -/
theorem Opening.session (h : Opening initial client passes record) : ∃ front back former,
    record = front ++ back ∧ back ≠ [] ∧ Apart initial record former ⟨client, back, []⟩ [] [] ∧
      passes ≤ settled (former ++ [⟨client, back, []⟩]) := by
  obtain ⟨front, back, former, now, hrecord, hapart, hdone, hpasses, hhanded, hback⟩ := h
  refine ⟨front, back, former ++ [now], hrecord, ?_, ?_, ?_⟩
  · rintro rfl
    cases hhanded
  rotate_left
  · rw [settled_concat]
    exact hpasses
  refine {
    record := ?_
    first := ?_
    opens := ?_
    pipes := ?_
    pipesNow := ⟨fun _ h => absurd h List.not_mem_nil, .nil, rfl, rfl⟩ }
  · rw [hrecord, hapart.record]
    simp [ClientSession.calls]
  · have hfirst := hapart.first
    cases former with
    | nil => exact hfirst
    | cons t former => exact hfirst
  · have hopens := hapart.opens
    rw [List.tail_append_of_ne_nil (by simp)]
    simp only [List.forall_mem_append, List.mem_singleton, forall_eq]
    exact ⟨hopens, hhanded, hback, fun hserving => absurd rfl hserving⟩
  · simpa only [List.forall_mem_append, List.mem_singleton, forall_eq] using
      ⟨hapart.pipes, hapart.pipesNow, hdone⟩

/-- The UART has nothing left: the client is served. -/
theorem Opening.serving (h : Opening initial client passes (record ++ [.serialAvailable 0])) :
    Serving initial client [] [] due passes (record ++ [.serialAvailable 0]) := by
  obtain ⟨front, back, former, hrecord, hsome, hapart, hpasses⟩ := h.session
  refine ⟨former, _, hapart, rfl, .inr ?_, (fun _ h => nomatch h), hpasses⟩
  obtain ⟨opening, last, rfl⟩ := (List.eq_nil_or_concat back).resolve_left hsome
  rw [List.concat_eq_append, ← List.append_assoc] at hrecord
  have hlast := (List.append_inj' hrecord rfl).2
  change (opening.concat last).getLast? = _
  rw [List.concat_eq_append, ← hlast, List.getLast?_concat]

end Steps

/-! ## The parts of the loop -/

section Parts

variable {α : Type} {initial client incoming : Client} {passes : Nat} {hand handBack : List UInt8}
  {due : Call Client → Prop}

variable [DecidableEq Client]

/-- A client is served, with nothing in hand and nothing due. -/
abbrev Ready (initial client : Client) (passes : Nat) (r : Run World Client) : Prop :=
  Serving initial client [] [] (fun _ => True) passes r.record

variable (lib : Libraries World Client) (initial client passes)

end Parts

/-! ## The result -/

section Result

variable (client : Client) (lib : Libraries World Client)

end Result

end OtaBoot.Gateway
