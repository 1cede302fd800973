import OtaBoot.Firmware.Uart
import OtaBoot.Foundation.Ring

/-!
# Reception

The receive ring as a bounded queue. The handler is the only writer of the head
and the main context of the tail, so what the main context has read of either
stays true, or only gets better, while bytes arrive between its accesses. What a
call returns is what it takes out of the ring, from the front.
-/

namespace OtaBoot

open Interrupts BoundedQueue

/-- The ring has room for one byte less than it has slots. -/
abbrev RxQueue := BoundedQueue UInt8 (uartRxBufferSize - 1)

/-- The ring holds the bytes. -/
structure Uart.Holds (u : Uart) (items : List UInt8) : Prop where
  buffer : u.rxBuf.isSome
  mask : u.rxMask = 511
  ring : Ring.Holds uartRxBufferSize (fun i => u.slot (UInt32.ofNat i)) u.rxTail.toNat
    u.rxHead.toNat items

/-- The ring holds what the queue stores, and the drops are counted. -/
structure Uart.Matches (u : Uart) (queue : RxQueue) : Prop where
  holds : u.Holds queue.stored
  counted : u.cntOverrunSw = UInt32.ofNat queue.dropped.length

/-- The bytes in the ring, the oldest first. -/
def Uart.contents (u : Uart) : List UInt8 :=
  (List.range ((u.rxHead - u.rxTail) &&& u.rxMask).toNat).map fun i =>
    u.slot ((u.rxTail + UInt32.ofNat i) &&& u.rxMask)

section Indices

theorem toNat_mask (x : UInt32) : (x &&& 511).toNat = x.toNat % uartRxBufferSize := by
  rw [UInt32.toNat_and]
  exact Nat.and_two_pow_sub_one_eq_mod x.toNat 9

theorem toNat_next (x : UInt32) : ((x + 1) &&& 511).toNat = (x.toNat + 1) % uartRxBufferSize := by
  rw [toNat_mask, UInt32.toNat_add]
  exact Nat.mod_mod_of_dvd _ (by decide)

/-- The distance of two indices. -/
theorem toNat_distance {head tail : UInt32} (htail : tail.toNat < uartRxBufferSize) :
    ((head - tail) &&& 511).toNat =
      (head.toNat + uartRxBufferSize - tail.toNat) % uartRxBufferSize := by
  have hhead := head.toNat_lt
  rw [toNat_mask, UInt32.toNat_sub]
  unfold uartRxBufferSize at htail ⊢
  omega

theorem Uart.Holds.contents_eq {u : Uart} {items : List UInt8} (h : u.Holds items) :
    u.contents = items := by
  have hring := h.ring
  have hcount : ((u.rxHead - u.rxTail) &&& u.rxMask).toNat = items.length := by
    rw [h.mask, toNat_distance hring.tail_lt, hring.length_eq]
  rw [Uart.contents, hcount]
  apply List.ext_getElem
  · rw [List.length_map, List.length_range]
  · intro i _ hi
    have hroom := hring.room
    have htail := hring.tail_lt
    unfold uartRxBufferSize at hroom htail
    have hindex : (u.rxTail + UInt32.ofNat i) &&& u.rxMask =
        UInt32.ofNat ((u.rxTail.toNat + i) % uartRxBufferSize) := by
      rw [← UInt32.toNat_inj, h.mask, toNat_mask, UInt32.toNat_add,
        UInt32.toNat_ofNat_of_lt' (by rw [UInt32.size]; omega),
        UInt32.toNat_ofNat_of_lt' (by unfold uartRxBufferSize; rw [UInt32.size]; omega)]
      unfold uartRxBufferSize
      omega
    rw [List.getElem_map, List.getElem_range, hindex]
    exact hring.slot_eq i _ (List.getElem?_eq_getElem hi)

end Indices

section Handler

variable {u : Uart} {queue : RxQueue} {items : List UInt8} {status : UInt32}

theorem Uart.countErrors_ring (status : UInt32) (u : Uart) :
    (u.countErrors status).rxBuf = u.rxBuf ∧ (u.countErrors status).rxMask = u.rxMask ∧
      (u.countErrors status).rxHead = u.rxHead ∧ (u.countErrors status).rxTail = u.rxTail ∧
      (u.countErrors status).cntOverrunSw = u.cntOverrunSw := by
  unfold Uart.countErrors
  split <;> exact ⟨rfl, rfl, rfl, rfl, rfl⟩

theorem Uart.Holds.congr {u' : Uart} (h : u.Holds items) (hbuf : u'.rxBuf = u.rxBuf)
    (hmask : u'.rxMask = u.rxMask) (hhead : u'.rxHead = u.rxHead) (htail : u'.rxTail = u.rxTail) :
    u'.Holds items := by
  refine ⟨hbuf ▸ h.buffer, hmask ▸ h.mask, ?_⟩
  rw [hhead, htail]
  refine h.ring.congr ?_
  intro i _
  simp only [Uart.slot, hbuf]

theorem Uart.Holds.countErrors (h : u.Holds items) (status : UInt32) :
    (u.countErrors status).Holds items := by
  obtain ⟨hbuf, hmask, hhead, htail, -⟩ := u.countErrors_ring status
  exact h.congr hbuf hmask hhead htail

/-- The handler finds the ring full exactly when one slot is left. -/
theorem Uart.Holds.full_iff (h : u.Holds items) :
    (u.rxHead + 1) &&& u.rxMask = u.rxTail ↔ items.length = uartRxBufferSize - 1 := by
  rw [h.mask, ← UInt32.toNat_inj, toNat_next]
  exact h.ring.full_iff

/-- Without a byte the handler leaves the ring alone. -/
theorem Uart.isr_idle (u : Uart) (rdr : UInt32) (hstatus : status &&& isrRxne = 0) :
    u.isr status rdr = u.countErrors status := by
  rw [Uart.isr, if_neg (not_not.mpr hstatus)]

/-- With a byte and a full ring, it counts. -/
theorem Uart.isr_full (h : u.Holds items) (rdr : UInt32) (hstatus : status &&& isrRxne ≠ 0)
    (hfull : items.length = uartRxBufferSize - 1) :
    u.isr status rdr =
      { u.countErrors status with cntOverrunSw := u.cntOverrunSw + 1 } := by
  have hafter := h.countErrors status
  obtain ⟨buf, hbuf⟩ := Option.isSome_iff_exists.mp hafter.buffer
  obtain ⟨-, -, -, -, hcount⟩ := u.countErrors_ring status
  simp only [Uart.isr, if_pos hstatus, hbuf, if_pos (hafter.full_iff.mpr hfull), hcount]

/-- With a byte and room, it stores the byte. -/
theorem Uart.isr_room (h : u.Holds items) (rdr : UInt32) (hstatus : status &&& isrRxne ≠ 0)
    (hroom : items.length ≠ uartRxBufferSize - 1) :
    ∃ buf, u.rxBuf = some buf ∧ u.isr status rdr = { u.countErrors status with
      rxBuf := some (Function.update buf u.rxHead (rdrByte rdr))
      rxHead := (u.rxHead + 1) &&& u.rxMask } := by
  have hafter := h.countErrors status
  obtain ⟨hbufs, hmask, hhead, -, -⟩ := u.countErrors_ring status
  obtain ⟨buf, hbuf⟩ := Option.isSome_iff_exists.mp hafter.buffer
  refine ⟨buf, hbufs ▸ hbuf, ?_⟩
  simp only [Uart.isr, if_pos hstatus, hbuf, if_neg (mt hafter.full_iff.mp hroom)]
  rw [hhead, hmask]

/-- The ring after a byte was stored. -/
theorem Uart.Holds.store {u' : Uart} {buf : UInt32 → UInt8} {byte : UInt8} (h : u.Holds items)
    (hroom : items.length ≠ uartRxBufferSize - 1) (hbuf : u.rxBuf = some buf)
    (hbuf' : u'.rxBuf = some (Function.update buf u.rxHead byte))
    (hmask : u'.rxMask = u.rxMask) (hhead : u'.rxHead = (u.rxHead + 1) &&& u.rxMask)
    (htail : u'.rxTail = u.rxTail) : u'.Holds (items ++ [byte]) := by
  refine ⟨by rw [hbuf']; rfl, hmask.trans h.mask, ?_⟩
  have hpush := h.ring.push (mt h.ring.full_iff.mp hroom) byte
  rw [hhead, htail, h.mask, toNat_next]
  refine hpush.congr ?_
  intro i hi
  have hsmall : i < UInt32.size := Nat.lt_trans hi (by decide)
  have hsame : UInt32.ofNat i = u.rxHead ↔ i = u.rxHead.toNat := by
    rw [← UInt32.toNat_inj, UInt32.toNat_ofNat_of_lt' hsmall]
  simp only [Uart.slot, hbuf, hbuf', Function.update_apply, hsame]

/-- The byte that an interrupt stores: the head moves. -/
def UartIrq.accepts (irq : UartIrq) (u : Uart) : List UInt8 :=
  if (u.isr irq.status irq.rdr).rxHead = u.rxHead then [] else [rdrByte irq.rdr]

/-- The byte that an interrupt drops: it has arrived, and the head stays. -/
def UartIrq.drops (irq : UartIrq) (u : Uart) : List UInt8 :=
  if irq.status &&& isrRxne ≠ 0 ∧ (u.isr irq.status irq.rdr).rxHead = u.rxHead then
    [rdrByte irq.rdr]
  else []

/-- What an interrupt does to the ring. -/
inductive Interrupted (u : Uart) (items : List UInt8) (irq : UartIrq) : Prop where
  | idle (hstatus : irq.status &&& isrRxne = 0) (haccepts : irq.accepts u = [])
      (hdrops : irq.drops u = []) (holds : (u.isr irq.status irq.rdr).Holds items)
      (counted : (u.isr irq.status irq.rdr).cntOverrunSw = u.cntOverrunSw)
  | dropped (hstatus : irq.status &&& isrRxne ≠ 0)
      (full : items.length = uartRxBufferSize - 1) (haccepts : irq.accepts u = [])
      (hdrops : irq.drops u = [rdrByte irq.rdr])
      (holds : (u.isr irq.status irq.rdr).Holds items)
      (counted : (u.isr irq.status irq.rdr).cntOverrunSw = u.cntOverrunSw + 1)
  | stored (hstatus : irq.status &&& isrRxne ≠ 0)
      (room : items.length < uartRxBufferSize - 1) (haccepts : irq.accepts u = [rdrByte irq.rdr])
      (hdrops : irq.drops u = [])
      (holds : (u.isr irq.status irq.rdr).Holds (items ++ [rdrByte irq.rdr]))
      (counted : (u.isr irq.status irq.rdr).cntOverrunSw = u.cntOverrunSw)

theorem Uart.Holds.head_moves (h : u.Holds items) : (u.rxHead + 1) &&& u.rxMask ≠ u.rxHead := by
  intro heq
  have hnext := congrArg UInt32.toNat heq
  have hlt := h.ring.head_lt
  rw [h.mask, toNat_next] at hnext
  unfold uartRxBufferSize at hnext hlt
  omega

theorem Uart.Holds.interrupted (h : u.Holds items) (irq : UartIrq) : Interrupted u items irq := by
  obtain ⟨hbuf, hmask, hhead, htail, hcount⟩ := u.countErrors_ring irq.status
  by_cases hstatus : irq.status &&& isrRxne = 0
  · have hisr := Uart.isr_idle u irq.rdr hstatus
    have hstays : (u.isr irq.status irq.rdr).rxHead = u.rxHead := by
      rw [hisr]
      exact hhead
    refine .idle hstatus (if_pos hstays) (if_neg fun hnew => hnew.1 hstatus) ?_ ?_
    · rw [hisr]
      exact h.countErrors irq.status
    · rw [hisr]
      exact hcount
  · by_cases hfull : items.length = uartRxBufferSize - 1
    · have hisr := Uart.isr_full h irq.rdr hstatus hfull
      have hstays : (u.isr irq.status irq.rdr).rxHead = u.rxHead := by
        rw [hisr]
        exact hhead
      refine .dropped hstatus hfull (if_pos hstays) (if_pos ⟨hstatus, hstays⟩) ?_ ?_
      · rw [hisr]
        exact h.congr hbuf hmask hhead htail
      · rw [hisr]
    · obtain ⟨buf, hsome, hisr⟩ := Uart.isr_room h irq.rdr hstatus hfull
      have hmoves : (u.isr irq.status irq.rdr).rxHead ≠ u.rxHead := by
        rw [hisr]
        exact h.head_moves
      refine .stored hstatus (Nat.lt_of_le_of_ne (Nat.le_sub_one_of_lt h.ring.room) hfull)
        (if_neg hmoves) (if_neg fun hnew => hmoves hnew.2) ?_ ?_
      · rw [hisr]
        exact h.store hfull hsome rfl hmask rfl htail
      · rw [hisr]
        exact hcount

end Handler

/-! ## What comes between two accesses -/

/-- Bytes may have arrived; the main context's side of the ring is as it was. -/
structure Arrived (u : Uart) (queue : RxQueue) (u' : Uart) (queue' : RxQueue) : Prop where
  isMatch : u'.Matches queue'
  tail : u'.rxTail = u.rxTail
  more : queue.stored <+: queue'.stored
  since : Since queue [] queue'

/-- What one interrupt does to the queue. -/
structure Hits (irq : UartIrq) (u : Uart) (queue queue' : RxQueue) : Prop where
  entered : queue'.entered = queue.entered ++ irq.accepts u
  left : queue'.left = queue.left
  dropped : queue'.dropped = queue.dropped ++ irq.drops u

/-- What a store of the main context may do to the queue. -/
def Takes (queue queue' : RxQueue) : Prop :=
  ∃ count ≤ queue.stored.length, queue' = queue.take count

/-- The handler leaves the tail to the main context. -/
theorem Uart.isr_tail (status rdr : UInt32) (u : Uart) :
    (u.isr status rdr).rxTail = u.rxTail := by
  obtain ⟨-, -, -, htail, -⟩ := u.countErrors_ring status
  unfold Uart.isr
  simp only
  split
  · split
    · exact htail
    · split <;> exact htail
  · exact htail

theorem uart_disturbs :
    Disturbs (fun irq u => u.isr irq.status irq.rdr) Uart.Matches Arrived Hits where
  refl h := ⟨h, rfl, List.prefix_rfl, .refl _⟩
  trans h h' := ⟨h'.isMatch, h'.tail.trans h.tail, h.more.trans h'.more, h.since.trans h'.since⟩
  holds h := h.isMatch
  interrupt irq u queue h := by
    have htail := u.isr_tail irq.status irq.rdr
    cases h.holds.interrupted irq with
    | idle _ haccepts hdrops holds counted =>
        refine ⟨queue, ⟨?_, rfl, ?_⟩, ⟨holds, counted.trans h.counted⟩, htail, List.prefix_rfl,
          .refl _⟩
        · rw [haccepts, List.append_nil]
        · rw [hdrops, List.append_nil]
    | dropped _ full haccepts hdrops holds counted =>
        refine ⟨queue.drop (rdrByte irq.rdr), ⟨?_, rfl, ?_⟩, ⟨holds, ?_⟩, htail, List.prefix_rfl,
          ⟨(List.append_nil _).symm, List.prefix_rfl⟩⟩
        · rw [haccepts, List.append_nil]
          rfl
        · rw [hdrops]
          rfl
        · rw [counted, h.counted, BoundedQueue.drop, List.length_append]
          exact (UInt32.ofNat_add _ _).symm
    | stored _ room haccepts hdrops holds counted =>
        refine ⟨queue.accept (rdrByte irq.rdr) room, ⟨?_, rfl, ?_⟩,
          ⟨holds, counted.trans h.counted⟩, htail, List.prefix_append _ _,
          ⟨(List.append_nil _).symm, List.prefix_append _ _⟩⟩
        · rw [haccepts]
          rfl
        · rw [hdrops, List.append_nil]
          rfl

/-! ## The main context -/

section MainContext

variable {u : Uart} {queue : RxQueue}

/-- A call of the main context, whatever arrives meanwhile. -/
abbrev MainCode.Correct {α : Type} (code : MainCode α) (post : RxQueue → α → RxQueue → Prop) :
    Prop :=
  ∀ (u : Uart) (queue : RxQueue), u.Matches queue → code.Refines Uart.Matches Arrived Takes
    (fun value u' queue' => u'.Matches queue' ∧ post queue value queue') u queue

/-- The count is of a moment between the call and its return. -/
theorem uartAvailable_correct :
    MainCode.Correct uartAvailable fun queue number queue' => Since queue [] queue' ∧
      queue.stored.length ≤ number.toNat ∧ number.toNat ≤ queue'.stored.length := by
  intro u queue h
  refine .bind (.get h ?_)
  intro u₁ queue₁ h₁
  rw [if_neg (by simp [Option.isSome_iff_ne_none.mp h₁.isMatch.holds.buffer])]
  refine .bind (.get h₁.isMatch ?_)
  intro u₂ queue₂ h₂
  refine .bind (.get h₂.isMatch ?_)
  intro u₃ queue₃ h₃
  refine .bind (.get h₃.isMatch ?_)
  intro u₄ queue₄ h₄
  -- the head is as old as `u₂`, the tail has not moved since
  have hcount : ((u₂.rxHead - u₃.rxTail) &&& u₄.rxMask).toNat = queue₂.stored.length := by
    have hring := h₂.isMatch.holds.ring
    rw [h₄.isMatch.holds.mask, h₃.tail, toNat_distance hring.tail_lt, hring.length_eq]
  refine .pure ⟨h₄.isMatch, ((h₁.since.trans h₂.since).trans h₃.since).trans h₄.since, ?_, ?_⟩
  · rw [hcount]
    exact (h₁.more.trans h₂.more).length_le
  · rw [hcount]
    exact (h₃.more.trans h₄.more).length_le

/-- The tail moves over the first bytes. -/
theorem Uart.Matches.take {tail : UInt32} {count : Nat} (h : u.Matches queue)
    (htail : tail.toNat = (u.rxTail.toNat + count) % uartRxBufferSize)
    (hcount : count ≤ queue.stored.length) :
    ({ u with rxTail := tail } : Uart).Matches (queue.take count) := by
  refine ⟨⟨h.holds.buffer, h.holds.mask, ?_⟩, h.counted⟩
  change Ring.Holds _ _ tail.toNat u.rxHead.toNat (queue.stored.drop count)
  rw [htail]
  exact h.holds.ring.drop hcount

/-- With a pointer for it, a byte is returned unless the ring is empty when the call is
made, and it is the first one. -/
theorem uartGetc_correct (out : Bool) :
    MainCode.Correct (uartGetc out) fun queue got queue' => Since queue got.toList queue' ∧
      (out = false → got = none) ∧
      (out = true → queue.stored ≠ [] → got = queue.stored.head?) := by
  intro u queue h
  refine .bind (.get h ?_)
  intro u₁ queue₁ h₁
  have hbuffer : u₁.rxBuf.isNone = false := by
    rw [← Option.not_isSome, h₁.isMatch.holds.buffer, Bool.not_true]
  by_cases hnull : out = false
  · rw [if_pos (by rw [hnull]; simp)]
    refine .pure ⟨h₁.isMatch, h₁.since, fun _ => rfl, fun hout => ?_⟩
    exact absurd (hnull.symm.trans hout) Bool.false_ne_true
  rw [if_neg (by rw [hbuffer]; simpa using hnull)]
  refine .bind (.get h₁.isMatch ?_)
  intro u₂ queue₂ h₂
  refine .bind (.get h₂.isMatch ?_)
  intro u₃ queue₃ h₃
  have hmore₃ : queue.stored <+: queue₃.stored := (h₁.more.trans h₂.more).trans h₃.more
  have hempty := h₃.isMatch.holds.ring.head_eq_tail_iff
  rw [h₃.tail, UInt32.toNat_inj] at hempty
  by_cases hsame : u₃.rxHead = u₂.rxTail
  · rw [if_pos hsame]
    refine .pure ⟨h₃.isMatch, (h₁.since.trans h₂.since).trans h₃.since, fun _ => rfl,
      fun _ hstored => absurd ?_ hstored⟩
    rw [hempty.mp hsame] at hmore₃
    exact List.prefix_nil.mp hmore₃
  rw [if_neg hsame]
  -- from here on the first byte is known and stays where it is
  obtain ⟨byte, rest, hstored⟩ := List.exists_cons_of_ne_nil (mt hempty.mpr hsame)
  refine .bind (.get h₃.isMatch ?_)
  intro u₄ queue₄ h₄
  obtain ⟨more₄, hmore₄⟩ := h₄.more
  rw [hstored] at hmore₄
  have hslot : u₄.slot u₂.rxTail = byte := by
    have hring := h₄.isMatch.holds.ring
    rw [← hmore₄, h₄.tail, h₃.tail] at hring
    have htail := hring.slot_tail
    rwa [UInt32.ofNat_toNat] at htail
  refine .bind (.get h₄.isMatch ?_)
  intro u₅ queue₅ h₅
  refine .bind (.set h₅.isMatch ?_)
  intro u₆ queue₆ h₆
  obtain ⟨more, hmore⟩ := h₅.more.trans h₆.more
  rw [← hmore₄] at hmore
  have htail : u₂.rxTail = u₆.rxTail := by
    rw [h₆.tail, h₅.tail, h₄.tail, h₃.tail]
  have hone : 1 ≤ queue₆.stored.length := by
    rw [← hmore]
    exact Nat.succ_le_succ (Nat.zero_le _)
  refine ⟨queue₆.take 1, ⟨1, hone, rfl⟩, .pure ⟨h₆.isMatch.take ?_ hone, ?_, ?_, ?_⟩⟩
  · rw [h₅.isMatch.holds.mask, htail, toNat_next]
  · have hsince := ((((h₁.since.trans h₂.since).trans h₃.since).trans h₄.since).trans
      h₅.since).trans h₆.since
    have htake := hsince.take 1
    rw [← hmore] at htake
    rw [hslot]
    exact htake
  · exact fun hout => absurd hout hnull
  · intro _ hnonempty
    rw [hslot]
    obtain ⟨first, others, hqueue⟩ := List.exists_cons_of_ne_nil hnonempty
    rw [hqueue, hstored] at hmore₃
    rw [hqueue, (List.cons_prefix_cons.mp hmore₃).1]
    rfl

/-- As many bytes as there is room for, or at least those that were there. -/
theorem uartReadLoop_correct (room : Nat) :
    MainCode.Correct (uartReadLoop room) fun queue got queue' => Since queue got queue' ∧
      got.length ≤ room ∧ min room queue.stored.length ≤ got.length := by
  induction room with
  | zero =>
      intro u queue h
      exact .pure ⟨h, .refl _, Nat.le_refl _, Nat.min_le_left _ _⟩
  | succ room ih =>
      intro u queue h
      refine .bind ((uartGetc_correct true u queue h).mono ?_)
      rintro result u₁ queue₁ ⟨h₁, hsince₁, -, hfirst⟩
      cases result with
      | none =>
          refine .pure ⟨h₁, hsince₁, Nat.zero_le _, ?_⟩
          have hempty : queue.stored = [] := by
            by_contra hnonempty
            have hhead := hfirst rfl hnonempty
            exact hnonempty (List.head?_eq_none_iff.mp hhead.symm)
          rw [hempty]
          exact Nat.min_le_right _ _
      | some byte =>
          refine .bind ((ih u₁ queue₁ h₁).mono ?_)
          rintro bytes u₂ queue₂ ⟨h₂, hsince₂, hroom, hleast⟩
          refine .pure ⟨h₂, hsince₁.trans hsince₂, Nat.succ_le_succ hroom, ?_⟩
          have hlength := hsince₁.stored_prefix.length_le
          simp only [Option.toList_some, List.singleton_append, List.length_cons] at hlength ⊢
          omega

theorem uartRead_correct (dest : Bool) (max : UInt32) :
    MainCode.Correct (uartRead dest max) fun queue got queue' => Since queue got queue' ∧
      (dest = false → got = []) ∧ got.length ≤ max.toNat ∧
      (dest = true → min max.toNat queue.stored.length ≤ got.length) := by
  intro u queue h
  unfold uartRead
  cases dest with
  | false =>
      exact .pure ⟨h, .refl _, fun _ => rfl, Nat.zero_le _, fun h => absurd h Bool.false_ne_true⟩
  | true =>
      refine (uartReadLoop_correct max.toNat u queue h).mono ?_
      rintro got u' queue' ⟨h', hsince, hroom, hleast⟩
      exact ⟨h', hsince, fun h => absurd h.symm Bool.false_ne_true, hroom, fun _ => hleast⟩

/-- The bytes that were there are discarded, and maybe some that came meanwhile. -/
theorem uartRxFlush_correct :
    MainCode.Correct uartRxFlush fun queue _ queue' =>
      ∃ gone, Since queue gone queue' ∧ queue.stored <+: gone := by
  intro u queue h
  refine .bind (.get h ?_)
  intro u₁ queue₁ h₁
  rw [if_pos h₁.isMatch.holds.buffer]
  refine .bind (.get h₁.isMatch ?_)
  intro u₂ queue₂ h₂
  refine .set h₂.isMatch ?_
  intro u₃ queue₃ h₃
  -- the head is as old as `u₂`
  have hcount : queue₂.stored.length ≤ queue₃.stored.length := h₃.more.length_le
  refine ⟨_, ⟨queue₂.stored.length, hcount, rfl⟩, h₃.isMatch.take ?_ hcount, _,
    ((h₁.since.trans h₂.since).trans h₃.since).take _, ?_⟩
  · rw [h₃.tail]
    exact h₂.isMatch.holds.ring.head_eq
  · obtain ⟨more, hmore⟩ := h₃.more
    rw [← hmore, List.take_left]
    exact h₁.more.trans h₂.more

end MainContext

/-! ## What calls answer -/

/-- What a call returns, from what was in the ring when it was made, what arrived until it
returned, and what was left in the ring then. -/
def UartCall.Serves : UartCall → List UInt8 → List UInt8 → UartResult → List UInt8 → Prop
  | .available, stored, arrived, .count number, after =>
      after = stored ++ arrived ∧ stored.length ≤ number.toNat ∧ number.toNat ≤ after.length
  | .getc out, stored, arrived, .byte got, after =>
      stored ++ arrived = got.toList ++ after ∧ (out = false → got = none) ∧
        (out = true → stored ≠ [] → got = stored.head?)
  | .read dest max, stored, arrived, .bytes got, after =>
      stored ++ arrived = got ++ after ∧ (dest = false → got = []) ∧ got.length ≤ max.toNat ∧
        (dest = true → min max.toNat stored.length ≤ got.length)
  | .flush, stored, arrived, .flushed, after =>
      ∃ gone, stored ++ arrived = gone ++ after ∧ stored <+: gone
  | _, _, _, _, _ => False

/-- The bytes that a call returns. -/
def UartResult.bytesReturned : UartResult → List UInt8
  | .byte got => got.toList
  | .bytes got => got
  | .count _ | .flushed => []

/-- A call takes a batch from the ring: what it returns, or what it discards. -/
def UartCall.Fits (done : UartCall × UartResult) (batch : List UInt8) : Prop :=
  done.1 = .flush ∨ batch = done.2.bytesReturned

/-- What a call does to the queue. -/
def UartCall.Answers (which : UartCall) (queue : RxQueue) (result : UartResult)
    (queue' : RxQueue) : Prop :=
  ∃ gone, Since queue gone queue' ∧ UartCall.Fits (which, result) gone ∧
    ∀ arrived, queue'.entered = queue.entered ++ arrived →
      which.Serves queue.stored arrived result queue'.stored

theorem UartCall.Answers.batch {which : UartCall} {queue queue' : RxQueue} {result : UartResult}
    (h : which.Answers queue result queue') :
    ∃ batch, queue'.left = queue.left ++ batch ∧ UartCall.Fits (which, result) batch := by
  obtain ⟨gone, hsince, hfits, -⟩ := h
  exact ⟨gone, hsince.left, hfits⟩

theorem UartCall.correct (which : UartCall) : which.body.Correct which.Answers := by
  intro u queue h
  cases which with
  | available =>
      refine .bind ((uartAvailable_correct u queue h).mono ?_)
      rintro number u' queue' ⟨h', hsince, hleast, hmost⟩
      refine .pure ⟨h', [], hsince, .inr rfl, fun arrived harrived => ⟨?_, hleast, hmost⟩⟩
      exact (hsince.balance harrived).symm
  | getc out =>
      refine .bind ((uartGetc_correct out u queue h).mono ?_)
      rintro got u' queue' ⟨h', hsince, hgot⟩
      exact .pure ⟨h', _, hsince, .inr rfl, fun arrived harrived =>
        ⟨hsince.balance harrived, hgot⟩⟩
  | read dest max =>
      refine .bind ((uartRead_correct dest max u queue h).mono ?_)
      rintro got u' queue' ⟨h', hsince, hgot⟩
      exact .pure ⟨h', _, hsince, .inr rfl, fun arrived harrived =>
        ⟨hsince.balance harrived, hgot⟩⟩
  | flush =>
      refine .bind ((uartRxFlush_correct u queue h).mono ?_)
      rintro _ u' queue' ⟨h', gone, hsince, hgone⟩
      exact .pure ⟨h', gone, hsince, .inl rfl, fun arrived harrived =>
        ⟨gone, hsince.balance harrived, hgone⟩⟩

/-! ## The result -/

/-- The bytes that interrupts stored. -/
def accepted (seen : List (Report Uart UartIrq UartCall UartResult)) : List UInt8 :=
  gathered UartIrq.accepts seen

/-- The bytes that interrupts dropped. -/
def droppedBytes (seen : List (Report Uart UartIrq UartCall UartResult)) : List UInt8 :=
  gathered UartIrq.drops seen

theorem uartReady_matches : uartProto.configure.Matches fresh := by
  refine ⟨⟨rfl, rfl, ?_⟩, rfl⟩
  exact Ring.Holds.empty (by decide) _

theorem Takes.history {queue queue' : RxQueue} (h : Takes queue queue') :
    queue'.entered = queue.entered ∧ queue'.dropped = queue.dropped ∧
      queue.left <+: queue'.left := by
  obtain ⟨count, -, rfl⟩ := h
  exact ⟨rfl, rfl, List.prefix_append _ _⟩

/-- Under any interleaving of interrupts with the accesses of the main context, the
receive ring is a bounded queue. The indices stay in the ring. A call that has returned
has returned the first bytes of the ring, with those that arrived meanwhile behind
them: `uart_getc` the first byte of a ring that was not empty, `uart_available` a count
of a moment since the call. All bytes that were stored are those that calls took, in
their order, and after them those in the ring; a call takes what it returns, or is a
flush. A byte that arrives is dropped, and counted, exactly when 511 are stored. -/
theorem reception_fifo (events : List (Event UartIrq UartCall)) :
    let c := Transition.run uartStep uartReady events
    c.memory.rxHead < 512 ∧ c.memory.rxTail < 512 ∧ c.memory.contents.length ≤ 511 ∧
    (∀ front which u notes result u' back,
      c.seen = front ++ .called which u :: (notes ++ .returned which result u' :: back) →
      Interruptions notes → which.Serves u.contents (accepted notes) result u'.contents) ∧
    (∃ batches inHand, accepted c.seen = batches.flatten ++ inHand ++ c.memory.contents ∧
      List.Forall₂ UartCall.Fits (results c.seen) batches ∧ (c.underWay = none → inHand = [])) ∧
    c.memory.cntOverrunSw = UInt32.ofNat (droppedBytes c.seen).length ∧
    ∀ irq : UartIrq, irq.status &&& isrRxne ≠ 0 →
      let u' := c.memory.isr irq.status irq.rdr
      if c.memory.contents.length = 511 then
        u'.contents = c.memory.contents ∧ u'.cntOverrunSw = c.memory.cntOverrunSw + 1
      else
        u'.contents = c.memory.contents ++ [rdrByte irq.rdr] ∧
          u'.cntOverrunSw = c.memory.cntOverrunSw := by
  intro c
  have hfollows : Follows Uart.Matches Arrived Takes Hits UartCall.Answers fresh c :=
    follows_run uart_disturbs (fun which u queue h => which.correct u queue h) uartReady_matches
      events
  obtain ⟨task, queue, htold, hmatch, hidle⟩ : ∃ task queue,
      Told Uart.Matches Takes Hits UartCall.Answers fresh c.seen task queue ∧
        c.memory.Matches queue ∧ (c.underWay = none → task = none) := by
    unfold Follows at hfollows
    cases hunderWay : c.underWay with
    | none =>
        rw [hunderWay] at hfollows
        obtain ⟨queue, htold, hmatch⟩ := hfollows
        exact ⟨none, queue, htold, hmatch, fun _ => rfl⟩
    | some call =>
        rw [hunderWay] at hfollows
        obtain ⟨before, queue, htold, hstanding⟩ := hfollows
        exact ⟨_, queue, htold, hstanding.holds, nofun⟩
  have hring := hmatch.holds.ring
  have hcontents := hmatch.holds.contents_eq
  refine ⟨hring.head_lt, hring.tail_lt, ?_, ?_, ?_, ?_, ?_⟩
  · rw [hcontents]
    exact queue.bounded
  · intro front which u notes result u' back hseen hnotes
    rw [hseen] at htold
    obtain ⟨before, after, hbefore, hafter, hentered, gone, -, -, hserves⟩ :=
      htold.answered BoundedQueue.entered hnotes (fun h => h.history.1) fun h => h.entered
    rw [hbefore.holds.contents_eq, hafter.holds.contents_eq]
    exact hserves _ hentered
  · have hentered :=
      htold.gathered_eq BoundedQueue.entered (fun h => h.history.1) fun h => h.entered
    obtain ⟨batches, inHand, hleft, hfits, hnone, -⟩ :=
      htold.batches BoundedQueue.left (fun h => h.history.2.2) (fun h => h.left)
        UartCall.Answers.batch
    refine ⟨batches, inHand, ?_, hfits, fun h => hnone (hidle h)⟩
    rw [hcontents]
    rw [queue.entered_eq, hleft] at hentered
    exact hentered.symm
  · have hdropped :=
      htold.gathered_eq BoundedQueue.dropped (fun h => h.history.2.1) fun h => h.dropped
    rw [hmatch.counted, hdropped]
    rfl
  · intro irq hstatus u'
    rw [hcontents]
    cases hmatch.holds.interrupted irq with
    | idle hidle => exact absurd hidle hstatus
    | dropped _ full _ _ holds counted =>
        rw [if_pos (show queue.stored.length = 511 from full)]
        exact ⟨holds.contents_eq, counted⟩
    | stored _ room _ _ holds counted =>
        rw [if_neg (show queue.stored.length ≠ 511 from Nat.ne_of_lt room)]
        exact ⟨holds.contents_eq, counted⟩

end OtaBoot
