import OtaBoot.Foundation.Raising
import OtaBoot.Host.Frame

/-!
# The transport and the update tool

`tools/transport.py` and the part of `tools/flash.py` that sends an image, over
whatever writes, waits and reads. A read that needs more than has arrived waits
until its deadline and raises `Timeout`.
-/

namespace OtaBoot.Host

open Raising LittleEndian

/-- What the tool has of a link: it writes, it waits for bytes, and it reads what
has arrived. -/
structure Wire (σ : Type) where
  write : List UInt8 → σ → σ
  /-- Until a read has its bytes or its deadline. -/
  wait : σ → σ
  inbox : σ → List UInt8
  /-- Leave only these bytes to be read. -/
  keep : List UInt8 → σ → σ
  /-- `_flush_input`. -/
  flush : σ → σ
  /-- The time between two attempts. -/
  sleep : σ → σ
  inbox_keep : ∀ bytes s, inbox (keep bytes s) = bytes
  keep_keep : ∀ bytes bytes' s, keep bytes (keep bytes' s) = keep bytes s

abbrev ToolM (σ : Type) := ExceptT HostError (StateM σ)

/-- The bytes after the first magic, if there is one. -/
def afterMagic (window : List UInt8) : List UInt8 → Option (List UInt8)
  | [] => none
  | byte :: rest =>
      -- (window + byte)[-2:]
      let window := (window ++ [byte]).drop ((window ++ [byte]).length - 2)
      if window = magic then some rest else afterMagic window rest

/-- The subclasses of `TransportError`. -/
def HostError.IsTransportError (e : HostError) : Prop :=
  e = .transport ∨ e = .timeout ∨ e = .disconnected

instance (e : HostError) : Decidable e.IsTransportError :=
  inferInstanceAs (Decidable (_ ∨ _ ∨ _))

/-! ## Reads with one deadline -/

namespace Wire

variable {σ : Type} (wire : Wire σ)

def send (frame : Frame) : ToolM σ Unit := do
  let raw ← ofExcept (encode frame)
  let s ← get
  set (wire.write raw s)

/-- `_read_exact`. -/
def readExact (n : Nat) : ToolM σ (List UInt8) := do
  let s ← get
  if (wire.inbox s).length < n then do
    set (wire.keep [] s)
    throw .timeout
  else do
    set (wire.keep ((wire.inbox s).drop n) s)
    pure ((wire.inbox s).take n)

def receive : ToolM σ Frame := do
  let s ← get
  set (wire.wait s)
  let s ← get
  match afterMagic [] (wire.inbox s) with
  | none => do
      set (wire.keep [] s)
      throw .timeout
  | some inbox => do
      set (wire.keep inbox s)
      let rest ← wire.readExact (frameHeaderSize - 2)
      let header := magic ++ rest
      let length := unpackField (header.extract 3 5)
      if length > maxPayloadSize then throw .transport
      else do
        let tail ← wire.readExact (length + frameCrcSize)
        ofExcept (decode (header ++ tail))

def flushInput : ToolM σ Unit := do
  let s ← get
  set (wire.flush s)

/-- `time.sleep(0.05)`. -/
def pause : ToolM σ Unit := do
  let s ← get
  set (wire.sleep s)

/-- `exchange`, with as many attempts as are left. -/
def exchange (frame : Frame) : Nat → ToolM σ Frame
  | 0 => throw .transport
  | attempts + 1 =>
      tryCatch (do
        wire.send frame
        wire.receive) fun e =>
          -- what a retransmission may mend
          if e = .timeout ∨ e = .badCrc ∨ e = .badMagic then do
            if attempts > 0 then do
              wire.flushInput
              wire.pause
            exchange frame attempts
          else throw e

/-- The loop over the blocks: the sequence number after the last one, or nothing
when a block was refused or got no reply. -/
def sendBlocks (seq : Nat) : List (List UInt8) → ToolM σ (Option Nat)
  | [] => pure (some seq)
  | block :: blocks => do
      let rep? ← tryCatch (do
        let rep ← wire.exchange ⟨cmdData, seq, block⟩ 3
        pure (some rep)) fun e =>
          if e = .disconnected then throw e
          -- a lost link is passed on, every other failure ends the transfer
          else if e.IsTransportError then pure none
          else throw e
      match rep? with
      | none => pure none
      | some rep =>
          if rep.cmd = rspNack then pure none else sendBlocks (seq + 1) blocks

end Wire

/-! ## Reads with several deadlines -/

/-- A link whose reads have a deadline. -/
structure Timed (σ : Type) where
  /-- `self.timeout`. -/
  timeoutMs : Nat
  /-- The link, for reads that have so many milliseconds. -/
  within : Nat → Wire σ

namespace Timed

variable {σ : Type} (tr : Timed σ)

def receive (timeoutMs : Option Nat) : ToolM σ Frame :=
  (tr.within (timeoutMs.getD tr.timeoutMs)).receive

/-- `exchange` does not say how long to wait. -/
def exchange (frame : Frame) (retries : Nat) : ToolM σ Frame :=
  (tr.within tr.timeoutMs).exchange frame retries

def sendBlocks (seq : Nat) (blocks : List (List UInt8)) : ToolM σ (Option Nat) :=
  (tr.within tr.timeoutMs).sendBlocks seq blocks

def sendFirmware (firmware : List UInt8) (slot version : Nat) : ToolM σ Bool := do
  let crc := crc32Stm32 firmware
  let blocks := splitFirmware firmware
  let su ← ofExcept (StartUpdate.pack ⟨firmware.length, crc, version, slot⟩)
  let rep ← tr.exchange ⟨cmdStartUpdate, 0, su⟩ 3
  if rep.cmd = rspNack then pure false
  else do
    let seq? ← tr.sendBlocks 1 blocks
    match seq? with
    | none => pure false
    | some seq => do
        let rep ← tryCatch (tr.exchange ⟨cmdEndUpdate, seq, []⟩ 1) fun e =>
          -- ten seconds for the verification of the whole image
          if e = .timeout then tr.receive (some 10000) else throw e
        if rep.cmd = rspNack then pure false else pure true

end Timed

/-- A link on which every wait brings the same, whatever its deadline. -/
def Wire.sendFirmware {σ : Type} (wire : Wire σ) (firmware : List UInt8) (slot version : Nat) :
    ToolM σ Bool :=
  Timed.sendFirmware ⟨1000, fun _ => wire⟩ firmware slot version

/-- The alignment in `main`. -/
def padded (firmware : List UInt8) : List UInt8 :=
  let remainder := firmware.length % 8
  if remainder ≠ 0 then firmware ++ List.replicate (8 - remainder) 0xFF else firmware

section Bodies

variable {cmd : UInt8} {seq : UInt16} {data : List UInt8}

theorem afterMagic_magic (rest : List UInt8) : afterMagic [] (magic ++ rest) = some rest := rfl

/-- The bytes of a frame behind its magic. -/
def body (cmd : UInt8) (seq : UInt16) (data : List UInt8) : List UInt8 :=
  Receiver.covered cmd seq data ++ bytes32 (crc32Compute (Receiver.covered cmd seq data))

theorem sendFrame_eq_magic : sendFrame cmd seq data = magic ++ body cmd seq data :=
  Receiver.sendFrame_eq cmd seq data

end Bodies

/-! ## Single frames -/

namespace Wire

variable {σ : Type} {wire : Wire σ} {s : σ} {cmd : UInt8} {seq len : UInt16}
  {data more : List UInt8} {crc : UInt32}

theorem returns_readExact {n : Nat} {front back : List UInt8}
    (hinbox : wire.inbox s = front ++ back) (hn : n = front.length) :
    Returns (wire.readExact n) s front (wire.keep back s) := by
  have henough : ¬ (wire.inbox s).length < n := by
    rw [hinbox, List.length_append]
    omega
  refine .bind (.get s) ?_
  rw [if_neg henough, hinbox, hn, List.drop_left, List.take_left]
  exact .bind (.set _ _) (.pure _ _)

/-- Nothing that could be a frame arrives. -/
theorem raises_receive (hnone : afterMagic [] (wire.inbox (wire.wait s)) = none) :
    Raises wire.receive s .timeout (wire.keep [] (wire.wait s)) := by
  refine .bind (.get s) (.bind (.set _ _) (.bind (.get _) ?_))
  rw [hnone]
  exact .bind (.set _ _) (.throw _ _)

/-- Behind the first magic, a whole frame is read and decoded. -/
theorem run_receive_found (hlen : len.toNat = data.length) (hshort : data.length ≤ 1024)
    (hfound : afterMagic [] (wire.inbox (wire.wait s)) =
      some (Receiver.headerBytes cmd seq len ++ (data ++ bytes32 crc ++ more))) :
    StateT.run wire.receive.run s =
      (decode (magic ++ (Receiver.headerBytes cmd seq len ++ (data ++ bytes32 crc))),
        wire.keep more (wire.wait s)) := by
  set s' := wire.wait s with hs'
  set header := Receiver.headerBytes cmd seq len with hheader
  have hfield : unpackField ((magic ++ header).extract 3 5) = data.length := by
    change unpackField (bytes16 len) = _
    rw [unpackField_bytes16, hlen]
  have hbound : ¬ data.length > maxPayloadSize := by
    change ¬ 1024 < data.length
    omega
  rw [receive, (Returns.get s).run_bind, (Returns.set _ _).run_bind, (Returns.get _).run_bind,
    ← hs', hfound]
  -- the header, and then the payload with the CRC
  have hrest : Returns (wire.readExact (frameHeaderSize - 2))
      (wire.keep (header ++ (data ++ bytes32 crc ++ more)) s') header
      (wire.keep (data ++ bytes32 crc ++ more) s') := by
    have hread : Returns (wire.readExact (frameHeaderSize - 2)) _ header _ :=
      returns_readExact (wire.inbox_keep (header ++ (data ++ bytes32 crc ++ more)) s') rfl
    rwa [wire.keep_keep] at hread
  have htail : Returns (wire.readExact (data.length + frameCrcSize))
      (wire.keep (data ++ bytes32 crc ++ more) s') (data ++ bytes32 crc) (wire.keep more s') := by
    have hlength : data.length + frameCrcSize = (data ++ bytes32 crc).length := by
      rw [List.length_append]
      rfl
    have hread := returns_readExact (wire.inbox_keep (data ++ bytes32 crc ++ more) s') hlength
    rwa [wire.keep_keep] at hread
  change StateT.run (_ >>= _ : ToolM σ Frame).run _ = _
  rw [(Returns.set _ _).run_bind, hrest.run_bind]
  simp only [hfield, hbound, if_false]
  rw [htail.run_bind, List.append_assoc]
  cases decode (magic ++ (header ++ (data ++ bytes32 crc))) <;> rfl

/-- Behind the first magic, a frame that the firmware has sent is received. -/
theorem returns_receive_found (hshort : data.length ≤ 1024)
    (hfound : afterMagic [] (wire.inbox (wire.wait s)) = some (body cmd seq data ++ more)) :
    Returns wire.receive s ⟨cmd.toNat, seq.toNat, data⟩ (wire.keep more (wire.wait s)) := by
  have hbody : body cmd seq data = Receiver.headerBytes cmd seq (UInt16.ofNat data.length) ++
      (data ++ bytes32 (crc32Compute (Receiver.covered cmd seq data))) :=
    List.append_assoc _ _ _
  rw [hbody, List.append_assoc] at hfound
  have hreceive := run_receive_found (Receiver.toNat_length_field hshort) hshort hfound
  rw [← hbody, ← sendFrame_eq_magic, decode_sendFrame cmd seq hshort] at hreceive
  exact hreceive

/-- A frame that the firmware has sent is received. -/
theorem returns_receive (hshort : data.length ≤ 1024)
    (hinbox : wire.inbox (wire.wait s) = sendFrame cmd seq data ++ more) :
    Returns wire.receive s ⟨cmd.toNat, seq.toNat, data⟩ (wire.keep more (wire.wait s)) := by
  refine returns_receive_found hshort ?_
  rw [hinbox, sendFrame_eq_magic, List.append_assoc, afterMagic_magic]

/-- A frame is written. -/
theorem returns_send (wire : Wire σ) (s : σ) (cmd : UInt8) (seq : UInt16)
    (hshort : data.length ≤ 1024) :
    Returns (wire.send ⟨cmd.toNat, seq.toNat, data⟩) s ⟨⟩
      (wire.write (sendFrame cmd seq data) s) :=
  .bind (.ofExcept (encode_eq cmd seq hshort) s) (.bind (.get s) (.set _ _))

variable {rep : Frame} {s' s'' : σ} {attempts : Nat}

/-- What is received in return for a frame. -/
theorem returns_exchange (attempts : Nat) (hshort : data.length ≤ 1024)
    (hreceive : Returns wire.receive (wire.write (sendFrame cmd seq data) s) rep s') :
    Returns (wire.exchange ⟨cmd.toNat, seq.toNat, data⟩ (attempts + 1)) s rep s' :=
  .tryCatch (.bind (returns_send wire s cmd seq hshort) hreceive)

/-- After a failure that this may mend, the frame is sent once more. -/
theorem returns_exchange_again {e : HostError} (hshort : data.length ≤ 1024)
    (hmends : e = .timeout ∨ e = .badCrc ∨ e = .badMagic)
    (hreceive : Raises wire.receive (wire.write (sendFrame cmd seq data) s) e s')
    (hagain : Returns (wire.exchange ⟨cmd.toNat, seq.toNat, data⟩ (attempts + 1))
      (wire.sleep (wire.flush s')) rep s'') :
    Returns (wire.exchange ⟨cmd.toNat, seq.toNat, data⟩ (attempts + 2)) s rep s'' := by
  refine Raises.tryCatch (.bind (returns_send wire s cmd seq hshort) hreceive) ?_
  rw [if_pos hmends, if_pos (Nat.succ_pos attempts)]
  exact .bind (.bind (.get _) (.set _ _)) (.bind (.bind (.get _) (.set _ _)) hagain)

end Wire

end OtaBoot.Host
