import OtaBoot.Firmware.Protocol
import OtaBoot.Foundation.Bus

/-!
# The receiver at its buffer

`feed` of `bootloader/src/protocol_mgr.c` again, down to every store into
`rx_frame` and every decrement of `rx_expected`.
-/

namespace OtaBoot.RxBuffer

open Storage

/-- The size of `rx_frame`. -/
def rxFrameSize : Nat := frameHeaderSize + maxPayloadSize.toNat + frameCrcSize

/-- A store into `rx_frame`, or a decrement of `rx_expected` from its present value. -/
inductive RxAccess where
  | store (index : Nat) (byte : UInt8)
  | decrement (expected : UInt32)
  deriving DecidableEq, Repr

/-- Programs on the receiver; they ask for nothing. -/
abbrev Assembler := Bus RxAccess Empty

/-- `rx_frame[index] = byte`. -/
def storeAt (rx : Receiver) (index : Nat) (byte : UInt8) : Assembler Receiver := do
  Bus.write (.store index byte)
  pure { rx with frame := rx.frame.store index [byte] }

/-- `rx_frame[rx_index++] = byte`. -/
def storeNext (rx : Receiver) (byte : UInt8) : Assembler Receiver := do
  let rx ← storeAt rx rx.index.toNat byte
  pure { rx with index := rx.index + 1 }

/-- `--rx_expected`. -/
def decrement (rx : Receiver) : Assembler Receiver := do
  Bus.write (.decrement rx.expected)
  pure { rx with expected := rx.expected - 1 }

/-- `rx_frame[rx_index++] = byte; --rx_expected`. -/
def push (rx : Receiver) (byte : UInt8) : Assembler Receiver := do
  let rx ← storeNext rx byte
  decrement rx

/-- `feed`, up to the point where a complete frame is acted on. -/
def feed (rx : Receiver) (byte : UInt8) : Assembler (Receiver × RxEvent) :=
  match rx.state with
  | .magic0 =>
      if byte = frameMagic0 then do
        let rx ← storeAt rx 0 byte
        pure ({ rx with state := .magic1 }, .pending)
      else pure (rx, .pending)
  | .magic1 =>
      if byte = frameMagic1 then do
        let rx ← storeAt rx 1 byte
        pure ({ rx with index := 2, expected := UInt32.ofNat (frameHeaderSize - 2),
                        state := .header }, .pending)
      else if byte = frameMagic0 then do
        let rx ← storeAt rx 0 byte
        pure (rx, .pending)
      else pure ({ rx with state := .magic0 }, .pending)
  | .header => do
      let rx ← push rx byte
      if rx.expected = 0 then
        if rx.len.toUInt32 > maxPayloadSize then pure (rx.reset, .overlong)
        else if rx.len = 0 then
          pure ({ rx with expected := UInt32.ofNat frameCrcSize, state := .crc }, .pending)
        else pure ({ rx with expected := rx.len.toUInt32, state := .data }, .pending)
      else pure (rx, .pending)
  | .data => do
      let rx ← push rx byte
      if rx.expected = 0 then
        pure ({ rx with expected := UInt32.ofNat frameCrcSize, state := .crc }, .pending)
      else pure (rx, .pending)
  | .crc => do
      let rx ← push rx byte
      if rx.expected = 0 then pure (rx.reset, rx.complete)
      else pure (rx, .pending)

/-- A stream of bytes, one after the other. -/
def feedAll (rx : Receiver) (bytes : List UInt8) : Assembler Receiver :=
  bytes.foldlM (fun rx byte => Prod.fst <$> feed rx byte) rx

/-! ## What is returned -/

section Returns

variable (rx : Receiver) (byte : UInt8)

theorem storeAt_returns (index : Nat) :
    (storeAt rx index byte).Returns { rx with frame := rx.frame.store index [byte] } :=
  .bind (.write _) (.pure _)

theorem storeNext_returns :
    (storeNext rx byte).Returns
      { rx with frame := rx.frame.store rx.index.toNat [byte], index := rx.index + 1 } :=
  .bind (storeAt_returns rx byte _) (.pure _)

theorem push_returns : (push rx byte).Returns (rx.push byte) :=
  .bind (storeNext_returns rx byte) (.bind (.write _) (.pure _))

/-- With its accesses on record, `feed` does what it does without. -/
theorem feed_returns : (feed rx byte).Returns (rx.feed byte) := by
  obtain ⟨state, frame, index, expected⟩ := rx
  unfold feed Receiver.feed
  cases state with
  | magic0 =>
      apply Bus.Returns.ite
      · exact fun _ => .bind (storeAt_returns _ byte 0) (.pure _)
      · exact fun _ => .pure _
  | magic1 =>
      apply Bus.Returns.ite
      · exact fun _ => .bind (storeAt_returns _ byte 1) (.pure _)
      · intro _
        apply Bus.Returns.ite
        · exact fun _ => .bind (storeAt_returns _ byte 0) (.pure _)
        · exact fun _ => .pure _
  | header =>
      refine .bind (push_returns _ byte) (.ite (fun _ => .ite (fun _ => .pure _) fun _ => ?_)
        fun _ => .pure _)
      exact .ite (fun _ => .pure _) fun _ => .pure _
  | data => exact .bind (push_returns _ byte) (.ite (fun _ => .pure _) fun _ => .pure _)
  | crc => exact .bind (push_returns _ byte) (.ite (fun _ => .pure _) fun _ => .pure _)

theorem feedAll_returns (bytes : List UInt8) :
    (feedAll rx bytes).Returns (bytes.foldl (fun rx byte => (rx.feed byte).1) rx) := by
  induction bytes generalizing rx with
  | nil => exact .pure rx
  | cons byte bytes ih => exact .bind ((feed_returns rx byte).map Prod.fst) (ih _)

end Returns

/-! ## What is stored -/

/-- The buffer after an access. -/
def RxAccess.apply (frame : Memory UInt8) : RxAccess → Memory UInt8
  | .store index byte => frame.store index [byte]
  | .decrement _ => frame

section Stores

variable (rx : Receiver) (byte : UInt8)

/-- The buffer is changed by the stores on record. -/
theorem feed_frame :
    (rx.feed byte).1.frame = ((feed rx byte).run []).1.foldl RxAccess.apply rx.frame := by
  obtain ⟨state, frame, index, expected⟩ := rx
  unfold feed Receiver.feed
  cases state with
  | magic0 => dsimp only; split <;> rfl
  | magic1 =>
      dsimp only
      split
      · rfl
      · split <;> rfl
  | header =>
      dsimp only
      rw [(push_returns _ byte).run_bind]
      split
      · split
        · rfl
        · split <;> rfl
      · rfl
  | data | crc =>
      dsimp only
      rw [(push_returns _ byte).run_bind]
      split <;> rfl

/-- Over a stream too. -/
theorem feedAll_frame (bytes : List UInt8) :
    (bytes.foldl (fun rx byte => (rx.feed byte).1) rx).frame =
      ((feedAll rx bytes).run []).1.foldl RxAccess.apply rx.frame := by
  induction bytes generalizing rx with
  | nil => rfl
  | cons byte bytes ih =>
      have hfirst := (feed_returns rx byte).map Prod.fst
      have hrecord : ((Prod.fst <$> feed rx byte).run []).1 = ((feed rx byte).run []).1 := by
        rw [map_eq_pure_bind, (feed_returns rx byte).run_bind]
        exact List.append_nil _
      rw [feedAll, List.foldlM_cons, hfirst.run_bind, List.foldl_append, List.foldl_cons, hrecord,
        ← feed_frame, ih]
      rfl

end Stores

end OtaBoot.RxBuffer
