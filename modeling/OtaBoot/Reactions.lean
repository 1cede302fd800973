import OtaBoot.Host.Network
import OtaBoot.Properties.Silence

/-!
# What the board makes of what arrives

However bytes are spread over polls, and whatever they are, the manager acts on
what its receiver reports, in order. What each report keeps is kept to the end.
-/

namespace OtaBoot.Host

open Storage LittleEndian

section Streams

variable {rx : Receiver}

theorem reports_append (rx : Receiver) (front back : List UInt8) :
    reports rx (front ++ back) = reports rx front ++ reports (after rx front) back := by
  induction front generalizing rx with
  | nil => rfl
  | cons byte front ih =>
      rw [List.cons_append, reports, reports, ih, List.append_assoc]
      rfl

/-- A drain feeds what its budget allows. -/
theorem drain_eq_feedAll (p : Protocol) (budget : Nat) (received : Bool) (bytes : List UInt8) :
    p.drain budget received bytes =
      (fun q => (q, received || !(bytes.take budget).isEmpty)) <$>
        feedAll p (bytes.take budget) := by
  induction bytes generalizing p budget received with
  | nil =>
      rw [List.take_nil, List.isEmpty_nil, Bool.not_true, Bool.or_false, Protocol.drain]
      rfl
  | cons byte bytes ih =>
      cases budget with
      | zero =>
          rw [List.take_zero, List.isEmpty_nil, Bool.not_true, Bool.or_false]
          rfl
      | succ budget =>
          rw [List.take_succ_cons, feedAll, List.foldlM_cons, map_bind, List.isEmpty_cons,
            Bool.not_false, Bool.or_true]
          refine bind_congr fun q => ?_
          rw [ih, Bool.true_or]
          rfl

end Streams

/-! ## What is kept -/

/-- A relation between the frames that the manager will still accept, its state and
the flash, which everything that it does without a frame keeps, and which a frame
leads to the rest of the frames. -/
structure Carried (R : List Frame → Protocol → Flash → Prop) : Prop where
  receiver : ∀ {frames p flash} rx, R frames p flash → R frames (withRx rx p) flash
  rejected : ∀ {frames p flash}, R frames p flash →
    R frames { p with cntFramesKo := p.cntFramesKo + 1 } flash
  refused : ∀ {frames p flash} seq, R frames p flash →
    R frames (p.sendNack seq OtaBoot.errCrc) flash
  tail : ∀ {frames p flash} nowMs received, R frames p flash →
    R frames (p.pollTail nowMs received) flash
  frame : ∀ frame frames p, Triple .calm (R (frame :: frames) p) (act p (.dispatched frame))
    (R frames) fun _ => True

section Carried

variable {R : List Frame → Protocol → Flash → Prop}

/-- Reports that are acted on, one after the other. -/
theorem Carried.acts (h : Carried R) (found : List Report) (later : List Frame) (p : Protocol) :
    Triple .calm (R (found.filterMap Report.frame? ++ later) p) (found.foldlM act p) (R later)
      fun _ => True := by
  induction found generalizing p with
  | nil => exact Triple.pure fun _ hp => hp
  | cons report found ih =>
      rw [List.foldlM_cons]
      cases report with
      | rejected =>
          rw [act, pure_bind]
          exact (ih _).conseq (fun _ hp => h.rejected hp) (fun _ _ hq => hq) fun _ hcut => hcut
      | badCrc seq =>
          rw [act, pure_bind]
          exact (ih _).conseq (fun _ hp => h.refused _ (h.rejected hp)) (fun _ _ hq => hq)
            fun _ hcut => hcut
      | dispatched frame => exact Triple.bind (h.frame frame _ p) fun q => ih q

/-- One poll. -/
theorem Carried.poll (h : Carried R) (later : List Frame) (p : Protocol) (q : Poll) :
    Triple .calm (R ((reports p.rx q.drained).filterMap Report.frame? ++ later) p)
      (p.poll q.nowMs q.bytes)
      (fun p' flash => R later p' flash ∧ p'.rx = after p.rx q.drained) fun _ => True := by
  have hpoll : p.poll q.nowMs q.bytes = (reports p.rx q.drained).foldlM act p >>= fun p' =>
      pure ((withRx (after p.rx q.drained) p').pollTail q.nowMs
        (false || !q.drained.isEmpty)) := by
    rw [Protocol.poll, drain_eq_feedAll, feedAll_eq_act, bind_map_left, bind_map_left]
    rfl
  rw [hpoll]
  refine Triple.bind (h.acts _ later p) fun p' => Triple.pure fun flash hp => ⟨?_, ?_⟩
  · exact h.tail _ _ (h.receiver _ hp)
  · exact pollTail_rx _ _ _

/-- Polls one after the other, with what their bytes report as a whole. -/
theorem Carried.polls (h : Carried R) (later : List Frame) (polls : List Poll) (l : Link)
    (hl : R ((reports l.proto.rx (polls.flatMap Poll.drained)).filterMap Report.frame? ++ later)
      l.proto l.flash) :
    R later (polls.foldl Link.poll l).proto (polls.foldl Link.poll l).flash ∧
      (polls.foldl Link.poll l).inbox = l.inbox ∧ (polls.foldl Link.poll l).log = l.log := by
  induction polls generalizing l with
  | nil => exact ⟨hl, rfl, rfl⟩
  | cons q polls ih =>
      rw [List.flatMap_cons, reports_append, List.filterMap_append, List.append_assoc] at hl
      have hcalm : Triple .calm (· = l.flash) (l.proto.poll q.nowMs q.bytes) _ fun _ => True :=
        (h.poll _ l.proto q).conseq (fun _ hflash => hflash ▸ hl) (fun _ _ hq => hq)
          fun _ hcut => hcut
      obtain ⟨p', w, hrun, hp', hrx⟩ := hcalm.run_calm
      have hstep : l.poll q = { l with flash := w.state, proto := p' } := by
        rw [Link.poll, hrun]
      rw [← hrx] at hp'
      rw [List.foldl_cons, hstep]
      exact ih { l with flash := w.state, proto := p' } hp'

/-- What arrives in place of a frame, from a manager that has nothing to send. -/
theorem Carried.write (h : Carried R) (l : Link) (raw : List UInt8) (polls : List Poll)
    (hl : R ((reports l.proto.rx (polls.flatMap Poll.drained)).filterMap Report.frame?)
      { l.proto with tx := [] } l.flash) :
    R [] (l.write (fun _ _ => polls) raw).proto (l.write (fun _ _ => polls) raw).flash := by
  rw [← List.append_nil (List.filterMap _ _)] at hl
  exact (h.polls [] polls { l with proto := { l.proto with tx := [] } } hl).1

end Carried

/-! ## One frame -/

/-- What everything keeps that the manager does without a frame. -/
structure Steady (P : Protocol → Flash → Prop) : Prop where
  receiver : ∀ {p flash} rx, P p flash → P (withRx rx p) flash
  rejected : ∀ {p flash}, P p flash → P { p with cntFramesKo := p.cntFramesKo + 1 } flash
  refused : ∀ {p flash} seq, P p flash → P (p.sendNack seq OtaBoot.errCrc) flash
  tail : ∀ {p flash} nowMs received, P p flash → P (p.pollTail nowMs received) flash

section Phases

variable {P Q : Protocol → Flash → Prop} {raw : List UInt8}

/-- Until the frame is accepted the first holds, and then the second. -/
theorem Carried.of_phases (hP : Steady P) (hQ : Steady Q)
    (hframe : ∀ frame p, encode frame = .ok raw →
      Triple .calm (P p) (act p (.dispatched frame)) Q fun _ => True) :
    Carried fun frames p flash => (frames.map encode).Sublist [.ok raw] ∧ P p flash ∨
      frames = [] ∧ Q p flash where
  receiver rx := Or.imp (And.imp_right (hP.receiver rx)) (And.imp_right (hQ.receiver rx))
  rejected := Or.imp (And.imp_right hP.rejected) (And.imp_right hQ.rejected)
  refused seq := Or.imp (And.imp_right (hP.refused seq)) (And.imp_right (hQ.refused seq))
  tail nowMs received := Or.imp (And.imp_right (hP.tail nowMs received))
    (And.imp_right (hQ.tail nowMs received))
  frame frame frames p := by
    refine Triple.of_state fun flash hp => ?_
    rcases hp with ⟨hsub, hp⟩ | ⟨hnone, -⟩
    · obtain ⟨hraw, hrest⟩ : encode frame = .ok raw ∧ frames = [] := by
        rw [List.map_cons, List.sublist_singleton] at hsub
        rcases hsub with hnil | hone
        · cases hnil
        · obtain ⟨hhead, htail⟩ := List.cons.inj hone
          exact ⟨hhead, List.map_eq_nil_iff.mp htail⟩
      exact (hframe frame p hraw).conseq (fun _ h => h ▸ hp) (fun _ _ hq => .inr ⟨hrest, hq⟩)
        fun _ hcut => hcut
    · cases hnone

/-- What arrives in place of a frame is the frame, or it is rejected. -/
theorem Link.write_phases (hP : Steady P) (hQ : Steady Q)
    (hframe : ∀ frame p, encode frame = .ok raw →
      Triple .calm (P p) (act p (.dispatched frame)) Q fun _ => True)
    (l : Link) (polls : List Poll)
    (hheard : Network.Accepts raw (reports l.proto.rx (polls.flatMap Poll.drained)))
    (hl : P { l.proto with tx := [] } l.flash) :
    P (l.write (fun _ _ => polls) raw).proto (l.write (fun _ _ => polls) raw).flash ∨
      Q (l.write (fun _ _ => polls) raw).proto (l.write (fun _ _ => polls) raw).flash := by
  rcases (Carried.of_phases hP hQ hframe).write l raw polls (.inl ⟨hheard, hl⟩) with hp | hq
  · exact .inl hp.2
  · exact .inr hq.2

end Phases

/-! ## What the board sends -/

/-- Frames of the firmware, one after the other, each of them good. -/
inductive Replies (good : Frame → Prop) : List UInt8 → Prop
  | nil : Replies good []
  | snoc {tx : List UInt8} {cmd : UInt8} {seq : UInt16} {data : List UInt8}
      (hfront : Replies good tx) (hshort : data.length ≤ 1024)
      (hgood : good ⟨cmd.toNat, seq.toNat, data⟩) : Replies good (tx ++ sendFrame cmd seq data)

section Replies

variable {good good' : Frame → Prop} {tx : List UInt8}

theorem Replies.mono (h : Replies good tx) (himp : ∀ frame, good frame → good' frame) :
    Replies good' tx := by
  induction h with
  | nil => exact .nil
  | snoc _ hshort hgood ih => exact .snoc ih hshort (himp _ hgood)

theorem Replies.all_reported (h : Replies good tx) {rx : Receiver} (hhunting : rx.state = .magic0) :
    (after rx tx).state = .magic0 ∧
      ∀ report ∈ reports rx tx, ∃ frame, report = .dispatched frame ∧ good frame := by
  induction h with
  | nil => exact ⟨hhunting, fun _ hmem => by cases hmem⟩
  | @snoc tx cmd seq data _ hshort hgood ih =>
      obtain ⟨hafter, hfront⟩ := ih
      obtain ⟨rx', hstate, hreports, hrest⟩ :=
        noisy_frame [] hafter (by decide : ¬ magic <:+: []) cmd seq hshort
      rw [List.nil_append, List.append_nil] at hreports hrest
      refine ⟨?_, fun report hmem => ?_⟩
      · rw [after, List.foldl_append, ← after, ← after, hrest]
        exact hstate
      rw [reports_append, hreports] at hmem
      rcases List.mem_append.mp hmem with hold | hnew
      · exact hfront report hold
      · exact ⟨_, List.mem_singleton.mp hnew, hgood⟩

/-- What a reader finds in them. -/
theorem Replies.all_good (h : Replies good tx) : ∀ frame ∈ framesIn tx, good frame := by
  intro frame hmem
  obtain ⟨report, hreport, hframe⟩ := List.mem_filterMap.mp hmem
  have hparse : reports protocolInit.rx tx = parse tx := reports_eq_parse rfl tx
  rw [← hparse] at hreport
  obtain ⟨frame', rfl, hgood⟩ := (h.all_reported rfl).2 report hreport
  cases hframe
  exact hgood

end Replies

end OtaBoot.Host
