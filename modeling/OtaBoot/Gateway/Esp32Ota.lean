import OtaBoot.Foundation.Driven

/-!
# The WiFi gateway

`loop` of `esp32_ota.ino`. The TCP and UART libraries that it calls are not in the
repository: they are a parameter, and may answer what they like. What was called and
what it answered is kept in a record. Between two calls the world that the libraries
look at may become any other. What the sketch prints on its own console is left out.
-/

namespace OtaBoot.Gateway

/-! ## The libraries -/

/-- A call, with its answer. -/
inductive Call (Client : Type) where
  /-- A client as a condition. -/
  | holds (client : Client) (answer : Bool)
  | connected (client : Client) (answer : Bool)
  /-- `server.available`. -/
  | serverAvailable (answer : Client)
  | stop (client : Client)
  | setNoDelay (client : Client)
  | available (client : Client) (answer : Int)
  /-- What was stored in the buffer, and nothing where the call has failed. -/
  | read (client : Client) (n : Int) (answer : List UInt8)
  | write (client : Client) (buf : List UInt8)
  | serialAvailable (answer : Int)
  | serialRead (answer : Option UInt8)
  | serialReadBytes (n : Int) (answer : List UInt8)
  | serialWrite (buf : List UInt8)
  deriving DecidableEq, Repr

structure Libraries (World Client : Type) where
  holds : Client → World → Bool × World
  connected : Client → World → Bool × World
  serverAvailable : World → Client × World
  stop : Client → World → World
  setNoDelay : Client → World → World
  available : Client → World → Int × World
  read : Client → Int → World → List UInt8 × World
  /-- How many bytes it took is not asked. -/
  write : Client → List UInt8 → World → World
  serialAvailable : World → Int × World
  serialRead : World → Option UInt8 × World
  serialReadBytes : Int → World → List UInt8 × World
  serialWrite : List UInt8 → World → World

structure Run (World Client : Type) where
  world : World
  record : List (Call Client)

variable {World Client : Type} {α : Type}

def Run.move (r : Run World Client) (world : World) : Run World Client := { r with world }

abbrev Sketch (World Client : Type) := Driven (Run World Client) World

def ask (op : World → α × World) (entry : α → Call Client) (r : Run World Client) :
    α × Run World Client :=
  ((op r.world).1, ⟨(op r.world).2, r.record ++ [entry (op r.world).1]⟩)

def call (op : World → α × World) (entry : α → Call Client) : Sketch World Client α :=
  Driven.access Run.move (ask op entry)

/-- A call whose answer is not looked at. -/
def command (op : World → World) (entry : Call Client) : Sketch World Client Unit :=
  call (fun world => ((), op world)) fun _ => entry

/-! ## The loop -/

/-- `sizeof(buf)`. -/
def bufSize : Int := 512

/-- No more than the buffer holds. -/
def clamp (n : Int) : Int := if n > bufSize then bufSize else n

variable (lib : Libraries World Client)

/-- `!client || !client.connected()`. -/
def unserved (client : Client) : Sketch World Client Bool := do
  let given ← call (lib.holds client) (.holds client)
  if given then
    let still ← call (lib.connected client) (.connected client)
    return !still
  else return true

/-- `while (Serial1.available()) Serial1.read()`. -/
def drainUart : Sketch World Client Unit :=
  Driven.whileDo Run.move
    (fun r => (ask lib.serialAvailable .serialAvailable r).map (fun n => decide (n ≠ 0)) id)
    (fun r => (ask lib.serialRead .serialRead r).2) false

/-- `if (client) client.stop()`. -/
def stopFormer (client : Client) : Sketch World Client Unit := do
  let former ← call (lib.holds client) (.holds client)
  if former then command (lib.stop client) (.stop client) else return ()

/-- The body of the first `if`: the client that it leaves. -/
def acceptNext (client : Client) : Sketch World Client Client := do
  let incoming ← call lib.serverAvailable .serverAvailable
  let given ← call (lib.holds incoming) (.holds incoming)
  if given then
    stopFormer lib client
    command (lib.setNoDelay incoming) (.setNoDelay incoming)
    drainUart lib
    return incoming
  else return client

/-- socket -> UART. -/
def toUart (client : Client) : Sketch World Client Unit := do
  let n ← call (lib.available client) (.available client)
  if n > 0 then
    let got ← call (lib.read client (clamp n)) (.read client (clamp n))
    if got.length > 0 then command (lib.serialWrite got) (.serialWrite got)

/-- UART -> socket. -/
def toSocket (client : Client) : Sketch World Client Unit := do
  let n ← call lib.serialAvailable .serialAvailable
  if n > 0 then
    let got ← call (lib.serialReadBytes (clamp n)) (.serialReadBytes (clamp n))
    if got.length > 0 then command (lib.write client got) (.write client got)

/-- The first `if` of `loop`. -/
def takeIn (client : Client) : Sketch World Client Client := do
  let absent ← unserved lib client
  if absent then acceptNext lib client else return client

/-- The rest of `loop`. -/
def serve (client : Client) : Sketch World Client Unit := do
  let absent ← unserved lib client
  if absent then return ()
  else
    toUart lib client
    toSocket lib client

/-- `loop`: the client that it leaves. -/
def loop (client : Client) : Sketch World Client Client := do
  let client ← takeIn lib client
  serve lib client
  return client

end OtaBoot.Gateway
