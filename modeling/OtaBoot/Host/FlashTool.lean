import OtaBoot.Firmware.AppMain
import OtaBoot.Host.Update

/-!
# A run of the update tool

`main` of `tools/flash.py` around the sending of an image: the board is asked what
it runs, an application is asked to hand over where nothing answers, and the
answer says which file is sent under which version. What is only printed is left
out, and so is the estimate of the time.
-/

namespace OtaBoot.Host

/-! ## What the board says of itself -/

structure InfoResponse where
  fwVersion : Nat
  blVersion : Nat
  protoVersion : Nat
  activeSlot : Nat
  freeSlot : Nat
  state : Nat
  deriving DecidableEq, Repr

/-- `struct.unpack("<IIBBBB", …)`. -/
def InfoResponse.unpack (data : List UInt8) : Except HostError InfoResponse :=
  if data.length ≠ 12 then .error .badLength
  else
    .ok
      { fwVersion := unpackField (data.extract 0 4)
        blVersion := unpackField (data.extract 4 8)
        protoVersion := unpackField (data.extract 8 9)
        activeSlot := unpackField (data.extract 9 10)
        freeSlot := unpackField (data.extract 10 11)
        state := unpackField (data.extract 11 12) }

def readInfo (channel : Channel) : HostM InfoResponse := do
  let rep ← exchange channel ⟨cmdGetInfo, 0, []⟩ 3
  if rep.cmd = rspNack then throw .transport
  else if rep.cmd ≠ rspInfo then throw .transport
  else ofExcept (InfoResponse.unpack rep.data)

/-- One patch above: `next_version`. -/
def nextVersion (current : Nat) : Nat :=
  let major := (current >>> 16) &&& 0xFF
  let minor := (current >>> 8) &&& 0xFF
  let patch := (current &&& 0xFF) + 1
  let (patch, minor) := if patch > 0xFF then (0, minor + 1) else (patch, minor)
  let (minor, major) := if minor > 0xFF then (0, (major + 1) &&& 0xFF) else (minor, major)
  (major <<< 16) ||| (minor <<< 8) ||| patch

/-! ## Asking an application -/

/-- The bursts of `trigger_ota`, as many as there is time for. -/
def holdDown (channel : Channel) : Nat → HostM Unit
  | 0 => pure ()
  | bursts + 1 => do
      let l ← get
      set (l.write channel (List.replicate 64 App.otaTriggerByte))
      holdDown channel bursts

/-- The attempts to reach the bootloader. -/
def awaitBootloader (channel : Channel) : Nat → HostM Bool
  | 0 => pure false
  | attempts + 1 => do
      let answers ← tryCatch (do
        let _ ← readInfo channel
        pure true) fun e => if e.IsTransportError then pure false else throw e
      if answers then pure true else awaitBootloader channel attempts

def triggerOta (channel : Channel) (bursts : Nat) : HostM Bool := do
  holdDown channel bursts
  flushInput channel
  awaitBootloader channel 5

/-! ## The tool -/

/-- The command line, with the files that it leads to: `file` is that of `--file`,
and `dir` what `choose_binary` finds for a slot. -/
structure Args where
  info : Bool
  version : Option Nat
  slot : Option Nat
  file : Option (List UInt8)
  dir : Nat → Option (List UInt8)

/-- The file to send to the free slot, unless another slot is insisted on or there
is no file. -/
def Args.firmware (args : Args) (free : Nat) : Option (List UInt8) :=
  match args.file with
  | some file => if args.slot.isSome ∧ args.slot ≠ some free then none else some file
  | none => args.dir free

/-- What `main` tries: its exit status. -/
def attempt (channel : Channel) (bursts : Nat) (args : Args) : HostM Nat := do
  let nfo ← tryCatch (readInfo channel) fun e =>
    if e.IsTransportError then do
      let up ← triggerOta channel bursts
      if up then readInfo channel else throw e
    else throw e
  if nfo.protoVersion ≠ protoVersion then pure 1
  else if args.info then pure 0
  else
    let version := args.version.getD (nextVersion nfo.fwVersion)
    match args.firmware nfo.freeSlot with
    | none => pure 1
    | some firmware =>
        if firmware = [] then pure 1
        else do
          let sent ← sendFirmware channel (padded firmware) nfo.freeSlot version
          pure (if sent then 0 else 1)

/-- `main`, once its arguments are in order. -/
def flashMain (channel : Channel) (bursts : Nat) (args : Args) : HostM Nat :=
  tryCatch (attempt channel bursts args) fun e => if e.IsTransportError then pure 1 else throw e

end OtaBoot.Host
