import OtaBoot.Properties.Confirmation
import OtaBoot.Histories

/-!
# Update mode comes to an end

What `update_mode` does when nobody updates the board. Times are real ones, of
which the firmware sees the last 32 bits: a poll that comes less than a wrap after
the start and after the last activity measures both durations right.
-/

namespace OtaBoot

open Storage App

/-- Bytes none of which begins a frame. -/
def Unframed (bytes : List UInt8) : Prop := ∀ byte ∈ bytes, byte ≠ frameMagic0

/-- A receiver that looks for a frame skips what does not begin one. -/
theorem Protocol.feed_unframed {p : Protocol} (hhunting : p.rx.state = .magic0) {byte : UInt8}
    (hbyte : byte ≠ frameMagic0) : p.feed byte = pure p := by
  have hrx : p.rx.feed byte = (p.rx, .pending) := by
    rw [Receiver.feed, hhunting]
    exact if_neg hbyte
  rw [Protocol.feed, hrx]
  rfl

/-- Draining such bytes leaves the protocol manager alone. -/
theorem Board.drain_unframed (flash : Flash) {u : Session} (nowMs : UInt32) (budget : Nat)
    (received : Bool) {bytes : List UInt8} (hhunting : u.proto.rx.state = .magic0)
    (hbytes : Unframed bytes) :
    ∃ budget' received',
      (Board.mk flash (.update { u with drain := some (nowMs, budget, received) })).run
          (bytes.map (.byte · [])) =
        ⟨flash, .update { u with drain := some (nowMs, budget', received') }⟩ := by
  induction bytes generalizing budget received with
  | nil => exact ⟨budget, received, rfl⟩
  | cons byte bytes ih =>
      have hrest : Unframed bytes := fun b hb => hbytes b (List.mem_cons_of_mem _ hb)
      cases budget with
      | zero =>
          obtain ⟨budget', received', hrun⟩ := ih 0 received hrest
          exact ⟨budget', received', hrun⟩
      | succ budget =>
          obtain ⟨budget', received', hrun⟩ := ih budget true hrest
          refine ⟨budget', received', ?_⟩
          rw [List.map_cons, run_cons]
          simp only [step]
          rw [Protocol.feed_unframed hhunting (hbytes byte List.mem_cons_self)]
          exact hrun

theorem BootEffect.of_run {quiet : Prop} {otaRequest : Bool} {before after : Flash}
    {boot? : Option Boot} {m : Metadata} (h : BootEffect quiet otaRequest before after boot?)
    (hrun : bootDecision before = .run m) :
    after = before ∧ boot? = some (.updateMode (listenMs otaRequest) (some m.active)) := by
  cases h with
  | ran hdecision =>
      cases hdecision.symm.trans hrun
      exact ⟨rfl, rfl⟩
  | parked hdecision | attempted hdecision | attemptCut hdecision | rolledBack hdecision
  | rollbackFailed hdecision | rollbackCut hdecision => cases hdecision.symm.trans hrun

/-- A boot writes nothing where the image in force is confirmed and intact. -/
theorem Board.step_boot_run {flash : Flash} {m : Metadata} (hdecision : bootDecision flash = .run m)
    (otaRequest : Bool) (start : UInt32) (faults : List Fault) :
    Board.step ⟨flash, .reset⟩ (.boot otaRequest start faults) =
      ⟨flash, Board.booted start (.updateMode (listenMs otaRequest) (some m.active))⟩ := by
  have htriple := bootMain_triple (c := weather False) flash (fun _ _ => trivial) otaRequest
  have hout := htriple.run_from faults fun _ _ h => h.elim
  change Board.settle _ ((bootMain otaRequest).run ⟨flash, faults, []⟩) = _
  rcases hrun : (bootMain otaRequest).run ⟨flash, faults, []⟩ with
    ⟨boot | _, ⟨after, rest, calls⟩⟩ <;> rw [hrun] at hout
  · obtain ⟨rfl, hboot⟩ := hout.1.of_run hdecision
    cases hboot
    rfl
  · cases (hout.1.of_run hdecision).2

namespace Device

/-! ## One turn of the loop -/

/-- One turn of the loop of `update_mode`, with the bytes that are drained. -/
def round (time : Nat) (bytes : List UInt8) : List DeviceEvent :=
  .poll (UInt32.ofNat time) :: (bytes.map (.byte · []) ++ [.pollEnd])

theorem run_append (d : Device) (front back : List DeviceEvent) :
    d.run (front ++ back) = (d.run front).run back :=
  Transition.run_append d front back

theorem run_bytes (d : Device) (bytes : List UInt8) :
    d.run (bytes.map (.byte · [])) =
      { d with board := d.board.run (bytes.map (.byte · [])) } := by
  induction bytes generalizing d with
  | nil => rfl
  | cons byte bytes ih => exact ih _

/-- A turn without bytes ends in the tests of `update_mode`. -/
theorem run_round_silent {d : Device} {u : Session} (hmode : d.board.mode = .update u)
    (hdrain : u.drain = none) (time : Nat) :
    d.run (round time []) =
      d.follow ⟨d.board.flash, Board.polled u (UInt32.ofNat time) false⟩ := by
  simp only [round, run, List.map_nil, List.nil_append, Transition.run_cons, Transition.run_nil,
    step, Board.step, hmode, hdrain]
  rfl

/-- A turn with bytes that begin no frame does too. -/
theorem run_round_unframed {d : Device} {u : Session} (hmode : d.board.mode = .update u)
    (hdrain : u.drain = none) (hhunting : u.proto.rx.state = .magic0) {bytes : List UInt8}
    (hbytes : Unframed bytes) (time : Nat) :
    ∃ received, d.run (round time bytes) =
      d.follow ⟨d.board.flash, Board.polled u (UInt32.ofNat time) received⟩ := by
  obtain ⟨budget, received, hrun⟩ :=
    Board.drain_unframed d.board.flash (UInt32.ofNat time) uartRxBufferSize false hhunting hbytes
  refine ⟨received, ?_⟩
  have hpoll : d.step (.poll (UInt32.ofNat time)) = { d with
      board := ⟨d.board.flash,
        .update { u with drain := some (UInt32.ofNat time, uartRxBufferSize, false) }⟩ } := by
    simp only [step, Board.step, hmode, hdrain]
  rw [round, run, Transition.run_cons, hpoll, ← run, run_append, run_bytes, hrun]
  rfl

/-! ## The tests at the end of a turn -/

/-- What the firmware measures between two times. -/
theorem elapsed_toNat {before now : Nat} (hle : before ≤ now) (hwrap : now < before + 2 ^ 32) :
    (UInt32.ofNat now - UInt32.ofNat before).toNat = now - before := by
  rw [UInt32.toNat_sub, UInt32.toNat_ofNat', UInt32.toNat_ofNat']
  omega

theorem lt_elapsed_iff {before now : Nat} (hle : before ≤ now) (hwrap : now < before + 2 ^ 32)
    (limitMs : UInt32) :
    limitMs < UInt32.ofNat now - UInt32.ofNat before ↔ before + limitMs.toNat < now := by
  rw [UInt32.lt_iff_toNat_lt, elapsed_toNat hle hwrap]
  omega

/-- A session between two polls that has an application to go back to, with the
times of its start and of the last activity. -/
structure Waits (u : Session) (slot : Slot) (since last : Nat) : Prop where
  drain : u.drain = none
  next : u.next = some slot
  limit : 0 < u.limitMs
  incomplete : u.proto.state ≠ .complete
  start : u.start = UInt32.ofNat since
  activity : u.proto.state = .receiving → u.proto.lastActivityMs = UInt32.ofNat last

/-- The window is over, and so is the patience with a sender. -/
def Due (u : Session) (since last now : Nat) : Prop :=
  since + u.limitMs.toNat < now ∧
    (u.proto.state = .receiving → last + u.proto.timeoutMs.toNat < now)

/-- A time later than those that count, but by less than a wrap. -/
def Measured (u : Session) (since last now : Nat) : Prop :=
  since ≤ now ∧ now < since + 2 ^ 32 ∧
    (u.proto.state = .receiving → last ≤ now ∧ now < last + 2 ^ 32)

/-- A session that went on as the other would have. -/
structure Continues (u u' : Session) (slot : Slot) (since last now : Nat) : Prop where
  waits : Waits u' slot since last
  rx : u'.proto.rx = u.proto.rx
  idle : u.proto.state = .idle → u'.proto.state = .idle
  receiving : u'.proto.state = .receiving → u.proto.state = .receiving
  due : ∀ later, now ≤ later → (Due u' since last later ↔ Due u since last later)

variable {u : Session} {slot : Slot} {since last now : Nat}

/-- Where the state is not `receiving`, only the window counts. -/
theorem due_iff (h : u.proto.state ≠ .receiving) :
    Due u since last now ↔ since + u.limitMs.toNat < now :=
  and_iff_left fun hreceiving => absurd hreceiving h

/-- The last test of `update_mode`. -/
theorem Waits.verdict (h : Waits u slot since last) (hmeasured : Measured u since last now)
    {proto : Protocol} (hstate : proto.state ≠ .complete) :
    updateVerdict proto u.limitMs u.start (UInt32.ofNat now) =
      if proto.state = .idle ∧ since + u.limitMs.toNat < now then .returns else .keepListening := by
  have hlate := lt_elapsed_iff hmeasured.1 hmeasured.2.1 u.limitMs
  unfold updateVerdict
  rw [if_neg hstate, h.start]
  simp only [gt_iff_lt, h.limit, hlate, true_and]

theorem Waits.polled_of_tail (h : Waits u slot since last) (hmeasured : Measured u since last now)
    {received : Bool} (hstate : (u.proto.pollTail (UInt32.ofNat now) received).state ≠ .complete) :
    Board.polled u (UInt32.ofNat now) received =
      if (u.proto.pollTail (UInt32.ofNat now) received).state = .idle ∧
          since + u.limitMs.toNat < now then .app slot
      else .update { u with
        proto := u.proto.pollTail (UInt32.ofNat now) received, drain := none } := by
  unfold Board.polled
  dsimp only
  rw [h.verdict hmeasured hstate]
  by_cases hover : (u.proto.pollTail (UInt32.ofNat now) received).state = .idle ∧
      since + u.limitMs.toNat < now
  · simp only [if_pos hover, h.next]
  · simp only [if_neg hover]

/-- What the inactivity timer leaves: a transfer goes on, or there is none any more. -/
structure Tailed (u : Session) (last now : Nat) (proto : Protocol) : Prop where
  rx : proto.rx = u.proto.rx
  timeout : proto.timeoutMs = u.proto.timeoutMs
  state :
    u.proto.state = .receiving ∧ ¬ last + u.proto.timeoutMs.toNat < now ∧
        proto.state = .receiving ∧ proto.lastActivityMs = u.proto.lastActivityMs ∨
      (u.proto.state = .receiving → last + u.proto.timeoutMs.toNat < now) ∧ proto.state = .idle

theorem Waits.tailed (h : Waits u slot since last) (hmeasured : Measured u since last now)
    {received : Bool} (hquiet : received = true → u.proto.state = .idle) :
    Tailed u last now (u.proto.pollTail (UInt32.ofNat now) received) := by
  unfold Protocol.pollTail
  cases hstate : u.proto.state with
  | complete => exact absurd hstate h.incomplete
  | idle =>
      have hnever : ProtocolState.idle ≠ .receiving := by decide
      cases received with
      | true => exact ⟨rfl, rfl, .inr ⟨fun h => absurd (hstate.symm.trans h) hnever, hstate⟩⟩
      | false =>
          rw [if_neg Bool.false_ne_true, if_neg hnever]
          exact ⟨rfl, rfl, .inr ⟨fun h => absurd (hstate.symm.trans h) hnever, hstate⟩⟩
  | receiving =>
      obtain rfl : received = false := by
        cases received with
        | false => rfl
        | true => cases hstate.symm.trans (hquiet rfl)
      obtain ⟨hactive, hrecent⟩ := hmeasured.2.2 hstate
      have hout := lt_elapsed_iff hactive hrecent u.proto.timeoutMs
      rw [← h.activity hstate] at hout
      rw [if_neg Bool.false_ne_true, if_pos rfl]
      by_cases hexpired : UInt32.ofNat now - u.proto.lastActivityMs > u.proto.timeoutMs
      · rw [if_pos hexpired]
        exact ⟨rfl, rfl, .inr ⟨fun _ => hout.mp hexpired, rfl⟩⟩
      · rw [if_neg hexpired]
        exact ⟨rfl, rfl, .inl ⟨hstate, fun hlate => hexpired (hout.mpr hlate), hstate, rfl⟩⟩

/-- A turn in which nothing was received, or that found the manager idle, ends
update mode if it is due, and changes nothing that matters if it is not. -/
theorem Waits.polled (h : Waits u slot since last) (hmeasured : Measured u since last now)
    {received : Bool} (hquiet : received = true → u.proto.state = .idle) :
    Due u since last now ∧ Board.polled u (UInt32.ofNat now) received = .app slot ∨
      ¬ Due u since last now ∧ ∃ u', Board.polled u (UInt32.ofNat now) received = .update u' ∧
        Continues u u' slot since last now := by
  have htail := h.tailed hmeasured hquiet
  have hincomplete : (u.proto.pollTail (UInt32.ofNat now) received).state ≠ .complete := by
    rcases htail.state with ⟨-, -, hstate, -⟩ | ⟨-, hstate⟩ <;> rw [hstate] <;> decide
  rw [h.polled_of_tail hmeasured hincomplete]
  rcases htail.state with ⟨hreceiving, hearly, hstate, hsame⟩ | ⟨hover, hstate⟩
  · have hnotIdle : ¬ ((u.proto.pollTail (UInt32.ofNat now) received).state = .idle ∧
        since + u.limitMs.toNat < now) := by
      rw [hstate]
      exact fun h => absurd h.1 (by decide)
    refine .inr ⟨fun hdue => hearly (hdue.2 hreceiving), _, if_neg hnotIdle,
      ⟨rfl, h.next, h.limit, hincomplete, h.start, fun _ => hsame.trans (h.activity hreceiving)⟩,
      htail.rx, fun hidle => ?_, fun _ => hreceiving, fun later _ => ?_⟩
    · rw [hreceiving] at hidle
      cases hidle
    · unfold Due
      rw [htail.timeout, hstate, hreceiving]
  · have hnotReceiving : (u.proto.pollTail (UInt32.ofNat now) received).state ≠ .receiving := by
      rw [hstate]
      decide
    by_cases hlate : since + u.limitMs.toNat < now
    · exact .inl ⟨⟨hlate, hover⟩, if_pos ⟨hstate, hlate⟩⟩
    · refine .inr ⟨fun hdue => hlate hdue.1, _, if_neg fun h => hlate h.2,
        ⟨rfl, h.next, h.limit, hincomplete, h.start, fun h => absurd h hnotReceiving⟩, htail.rx,
        fun _ => hstate, fun h => absurd h hnotReceiving, fun later hlater => ?_⟩
      rw [due_iff hnotReceiving]
      exact ⟨fun h => ⟨h, fun hreceiving => Nat.lt_of_lt_of_le (hover hreceiving) hlater⟩,
        And.left⟩

/-! ## Turn after turn -/

/-- The turns of the loop, at their times. -/
def rounds (turns : List (Nat × List UInt8)) : List DeviceEvent :=
  turns.flatMap fun turn => round turn.1 turn.2

/-- Nothing comes in, or nothing that begins a frame while none is expected. -/
def Unanswered (u : Session) (bytes : List UInt8) : Prop :=
  bytes = [] ∨ u.proto.state = .idle ∧ u.proto.rx.state = .magic0 ∧ Unframed bytes

theorem run_round {d : Device} (hmode : d.board.mode = .update u) (hdrain : u.drain = none)
    {bytes : List UInt8} (hbytes : Unanswered u bytes) (time : Nat) :
    ∃ received, (received = true → u.proto.state = .idle) ∧
      d.run (round time bytes) =
        d.follow ⟨d.board.flash, Board.polled u (UInt32.ofNat time) received⟩ := by
  rcases hbytes with rfl | ⟨hidle, hhunting, hunframed⟩
  · exact ⟨false, fun h => absurd h Bool.false_ne_true, run_round_silent hmode hdrain time⟩
  · obtain ⟨received, hrun⟩ := run_round_unframed hmode hdrain hhunting hunframed time
    exact ⟨received, fun _ => hidle, hrun⟩

/-- An application that runs is left alone by the loop that does not. -/
theorem run_round_app {d : Device} (hmode : d.board.mode = .app slot) (time : Nat)
    (bytes : List UInt8) : d.run (round time bytes) = d := by
  have hpoll (nowMs : UInt32) : d.step (.poll nowMs) = d := by simp only [step, Board.step, hmode]
  have hend : d.step .pollEnd = d := by simp only [step, hmode]
  have hbytes : d.run (bytes.map (.byte · [])) = d := by
    induction bytes with
    | nil => rfl
    | cons byte bytes ih =>
        have hbyte : d.step (.byte byte []) = d := by simp only [step, Board.step, hmode]
        rw [List.map_cons, run, Transition.run_cons, hbyte]
        exact ih
  rw [round, run, Transition.run_cons, hpoll, ← run, run_append, hbytes]
  exact hend

theorem run_rounds_app {d : Device} (hmode : d.board.mode = .app slot)
    (turns : List (Nat × List UInt8)) : d.run (rounds turns) = d := by
  induction turns with
  | nil => rfl
  | cons turn turns ih =>
      rw [rounds, List.flatMap_cons, run_append, run_round_app hmode]
      exact ih

/-- Where the turns leave the device: running the application as soon as one of
them was due. -/
structure Left (d : Device) (u : Session) (slot : Slot) (since last : Nat)
    (turns : List (Nat × List UInt8)) (d' : Device) : Prop where
  flash : d'.board.flash = d.board.flash
  request : d'.hw.request = d.hw.request
  due : (∃ turn ∈ turns, Due u since last turn.1) → d'.board.mode = .app slot ∧ d'.loop = .start
  early : (∀ turn ∈ turns, ¬ Due u since last turn.1) →
    ∃ u', d'.board.mode = .update u' ∧ Waits u' slot since last

theorem run_rounds {d : Device} (hmode : d.board.mode = .update u) (h : Waits u slot since last)
    {turns : List (Nat × List UInt8)} (hsorted : turns.Pairwise fun turn later => turn.1 ≤ later.1)
    (hmeasured : ∀ turn ∈ turns, Measured u since last turn.1)
    (hquiet : ∀ turn ∈ turns, Unanswered u turn.2) :
    Left d u slot since last turns (d.run (rounds turns)) := by
  induction turns generalizing d u with
  | nil =>
      refine ⟨rfl, rfl, ?_, fun _ => ⟨u, hmode, h⟩⟩
      rintro ⟨turn, hmem, -⟩
      cases hmem
  | cons turn turns ih =>
      rw [List.pairwise_cons] at hsorted
      obtain ⟨received, hreceived, hround⟩ :=
        run_round hmode h.drain (hquiet turn List.mem_cons_self) turn.1
      have hturn := hmeasured turn List.mem_cons_self
      rw [rounds, List.flatMap_cons, run_append, hround]
      rcases h.polled hturn hreceived with ⟨hdue, happ⟩ | ⟨hnot, u', hupdate, hcontinues⟩
      · rw [happ]
        have hstays : (d.follow ⟨d.board.flash, .app slot⟩).run (rounds turns) = _ :=
          run_rounds_app rfl turns
        rw [← rounds, hstays]
        exact ⟨rfl, rfl, fun _ => ⟨rfl, rfl⟩, fun hearly => absurd hdue (hearly turn List.mem_cons_self)⟩
      · rw [hupdate]
        have hlater (later : Nat × List UInt8) (hmem : later ∈ turns) :
            Measured u' since last later.1 := by
          obtain ⟨hafter, hwrap, hrecent⟩ := hmeasured later (List.mem_cons_of_mem _ hmem)
          exact ⟨hafter, hwrap, fun hreceiving => hrecent (hcontinues.receiving hreceiving)⟩
        have hbytes (later : Nat × List UInt8) (hmem : later ∈ turns) : Unanswered u' later.2 := by
          rcases hquiet later (List.mem_cons_of_mem _ hmem) with hnone | ⟨hidle, hhunting, hunframed⟩
          · exact .inl hnone
          · exact .inr ⟨hcontinues.idle hidle, hcontinues.rx ▸ hhunting, hunframed⟩
        have hrest := ih (d := { d with board := ⟨d.board.flash, .update u'⟩ }) rfl
          hcontinues.waits hsorted.2 hlater hbytes
        refine ⟨hrest.flash, hrest.request, ?_, ?_⟩
        · rintro ⟨later, hmem, hdue⟩
          rcases List.mem_cons.mp hmem with rfl | hmem
          · exact absurd hdue hnot
          · exact hrest.due ⟨later, hmem, (hcontinues.due _ (hsorted.1 later hmem)).mpr hdue⟩
        · intro hearly
          exact hrest.early fun later hmem hdue => hearly later (List.mem_cons_of_mem _ hmem)
            ((hcontinues.due _ (hsorted.1 later hmem)).mp hdue)

theorem step_handsOver {d : Device} {schedule : List (Turn App.Move)} {faults : List Fault}
    (h : d.handsOver (.pass schedule faults) = true) :
    (d.step (.pass schedule faults)).board = ⟨d.board.flash, .reset⟩ ∧
      (d.step (.pass schedule faults)).pending = true := by
  have hany : Driven.Within (fun _ : App.Move => True) schedule := fun _ _ => trivial
  have hpass := triple_appPass d.loop d.hw.request d.hw ⟨.start d.hw _, rfl⟩ schedule hany
  unfold handsOver at h
  dsimp only at h
  split at h
  next slot loop rest hmode hrun =>
    rcases hback : (appPass d.loop).run d.hw schedule with ⟨hw, out?⟩
    rw [hback] at hrun hpass
    subst hrun
    simp only [step, hmode, hback]
    exact ⟨trivial, decide_eq_true hpass.1.2⟩
  next => cases h

/-- A boot that finds a request, and an image that it can run. -/
theorem step_boot_request {d : Device} {m : Metadata} (hmode : d.board.mode = .reset)
    (hpending : d.pending = true) (hdecision : bootDecision d.board.flash = .run m)
    (start : UInt32) (faults : List Fault) :
    d.step (.boot start faults) =
      { d with
        board := ⟨d.board.flash, Board.booted start (.updateMode otaWaitMs (some m.active))⟩
        hw := { d.hw with request := 0 } } := by
  obtain ⟨⟨flash, mode⟩, hw, loop⟩ := d
  obtain rfl : mode = .reset := hmode
  have hboot := Board.step_boot_run hdecision true start faults
  simp only [step, hpending, clearRequest, if_true]
  rw [hboot]
  rfl

/-- A request that nobody answers is forgotten: the bootloader listens for thirty
seconds and goes back to the application that was running, where that is confirmed and
intact. It starts anew, with no request pending and the flash as it was. Bytes that
begin no frame, such as trigger bytes that are still on the way, make no difference. -/
theorem unanswered_request_returns {d : Device} {m : Metadata} {schedule : List (Turn App.Move)}
    {faults : List Fault} (hmode : d.board.mode = .app m.active)
    (hhands : d.handsOver (.pass schedule faults) = true)
    (hdecision : bootDecision d.board.flash = .run m) (since : Nat) (bootFaults : List Fault)
    {turns : List (Nat × List UInt8)}
    (hsorted : turns.Pairwise fun turn later => turn.1 ≤ later.1)
    (htimes : ∀ turn ∈ turns, since ≤ turn.1 ∧ turn.1 < since + 2 ^ 32)
    (hbytes : ∀ turn ∈ turns, Unframed turn.2) :
    let d' := d.run ([.pass schedule faults, .boot (UInt32.ofNat since) bootFaults] ++ rounds turns)
    d'.board.flash = d.board.flash ∧ d'.pending = false ∧
      ((∃ turn ∈ turns, since + 30000 < turn.1) →
        d'.board.mode = d.board.mode ∧ d'.loop = .start) ∧
      ((∀ turn ∈ turns, turn.1 ≤ since + 30000) → ∃ u, d'.board.mode = .update u) := by
  obtain ⟨hboard, hpending⟩ := step_handsOver hhands
  have hboot := step_boot_request (by rw [hboard]) hpending (by rwa [hboard])
    (UInt32.ofNat since) bootFaults
  rw [hboard] at hboot
  have hidle : protocolInit.state ≠ .receiving := by decide
  have hincomplete : protocolInit.state ≠ .complete := by decide
  have hlimit : 0 < otaWaitMs := by decide
  intro d'
  have hwaits : Waits ⟨otaWaitMs, UInt32.ofNat since, some m.active, protocolInit, none⟩ m.active
      since since := ⟨rfl, rfl, hlimit, hincomplete, rfl, fun h => absurd h hidle⟩
  have hleft := run_rounds (d := (d.step (.pass schedule faults)).step
    (.boot (UInt32.ofNat since) bootFaults)) (by rw [hboot]; rfl) hwaits hsorted
    (fun turn hmem => ⟨(htimes turn hmem).1, (htimes turn hmem).2, fun h => absurd h hidle⟩)
    (fun turn hmem => .inr ⟨rfl, rfl, hbytes turn hmem⟩)
  have hend : d' = ((d.step (.pass schedule faults)).step
    (.boot (UInt32.ofNat since) bootFaults)).run (rounds turns) := rfl
  rw [← hend] at hleft
  have hdue (turn : Nat × List UInt8) : Due ⟨otaWaitMs, UInt32.ofNat since, some m.active,
      protocolInit, none⟩ since since turn.1 ↔ since + 30000 < turn.1 := due_iff hidle
  refine ⟨?_, ?_, ?_, ?_⟩
  · rw [hleft.flash, hboot]
  · rw [pending, hleft.request, hboot]
    rfl
  · rintro ⟨turn, hmem, hlate⟩
    rw [hmode]
    exact hleft.due ⟨turn, hmem, (hdue turn).mpr hlate⟩
  · intro hearly
    obtain ⟨u, hupdate, -⟩ := hleft.early fun turn hmem h =>
      Nat.not_lt.mpr (hearly turn hmem) ((hdue turn).mp h)
    exact ⟨u, hupdate⟩

/-- Slot A is active, and its image confirmed. -/
def aConfirmed : Metadata := { bothConfirmed with activeSlot := 0 }

theorem aConfirmed_runs :
    ∃ m, bootDecision (stocked vectorsOnly [] aConfirmed) = .run m ∧ m.active = .a ∧
      counterAt (stocked vectorsOnly [] aConfirmed) = 1 := by
  have hsound : aConfirmed.Sound := ⟨by decide, bothConfirmed_sound.2, bothConfirmed_sound.3⟩
  obtain ⟨m, hread, hm, hcounter⟩ := stocked_read (by decide : vectorsOnly.length ≤ _)
    (by decide : [].length ≤ _) hsound
  have hactive : m.active = .a := congrArg Ledger.active hm
  have hvalid : (m.slot .a).state = stateValid := congrArg (fun l => (l.slot .a).state) hm
  have himage : m.ledger.Describes (stocked vectorsOnly [] aConfirmed) .a vectorsOnly :=
    confirmedInfo_describes (congrArg (Ledger.slot · .a) hm) (stocked_slotA (by decide))
  have hintact := himage.intact
  refine ⟨m, ?_, hactive, hcounter⟩
  rw [bootDecision_of_read hread, hactive, if_pos hvalid, if_pos hintact]

/-- Its application, with three clean polls on count. -/
def resting : Device :=
  { awake with board := ⟨stocked vectorsOnly [] aConfirmed, .app .a⟩, loop := ⟨3, true, 3⟩ }

def restingTurns : List (Nat × List UInt8) := [(0, [otaTriggerByte]), (30000, []), (30001, [])]

theorem unanswered_request_returns_resting :
    let d' := resting.run
      ([.pass (heldLine 150) [], .boot (UInt32.ofNat 0) []] ++ rounds restingTurns)
    d'.board.flash = resting.board.flash ∧ d'.pending = false ∧
      d'.board.mode = resting.board.mode ∧ d'.loop = .start := by
  obtain ⟨m, hdecision, hactive, -⟩ := aConfirmed_runs
  have hmode : resting.board.mode = .app m.active := by
    rw [hactive]
    rfl
  have hhands : resting.handsOver (.pass (heldLine 150) []) = true := by decide +kernel
  have hsorted : restingTurns.Pairwise fun turn later => turn.1 ≤ later.1 := by decide
  have htimes : ∀ turn ∈ restingTurns, 0 ≤ turn.1 ∧ turn.1 < 0 + 2 ^ 32 := by decide
  have hsilent : Unframed [] := fun byte hbyte => absurd hbyte List.not_mem_nil
  have htrigger : Unframed [otaTriggerByte] := by
    intro byte hbyte
    rw [List.mem_singleton.mp hbyte]
    decide
  have hbytes : ∀ turn ∈ restingTurns, Unframed turn.2 := by
    simp [restingTurns, hsilent, htrigger]
  have hlate : ∃ turn ∈ restingTurns, 0 + 30000 < turn.1 := ⟨(30001, []), by decide, by decide⟩
  have hreturns := unanswered_request_returns hmode hhands hdecision 0 [] hsorted htimes hbytes
  -- what the run computes to is not looked at
  generalize resting.run _ = d' at hreturns ⊢
  exact ⟨hreturns.1, hreturns.2.1, hreturns.2.2.1 hlate⟩

end Device

end OtaBoot
