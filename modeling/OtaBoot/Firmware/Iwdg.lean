import OtaBoot.Foundation.Bus

/-!
# The watchdog driver

`drivers/iwdg.c`: the choice of a prescaler and of a reload value for a timeout,
the start sequence and the refresh.
-/

namespace OtaBoot.Iwdg

/-! ## Registers -/

/-- What the driver writes: `IWDG_KR`, `IWDG_PR`, `IWDG_RLR`, `IWDG_WINR`. -/
inductive RegWrite where
  | kr (value : UInt32)
  | pr (value : UInt32)
  | rlr (value : UInt32)
  | winr (value : UInt32)
  deriving DecidableEq, Repr

/-- Programs on the registers; what they read is `IWDG_SR`. -/
abbrev Driver := Bus RegWrite UInt32

def keyReload : UInt32 := 0xAAAA
def keyUnlock : UInt32 := 0x5555
def keyStart : UInt32 := 0xCCCC

def srPvu : UInt32 := (1 : UInt32) <<< 0
def srRvu : UInt32 := (1 : UInt32) <<< 1
def srWvu : UInt32 := (1 : UInt32) <<< 2

def winrDisabled : UInt32 := 0x0FFF
def rlrMax : UInt32 := 0x0FFF
def lsiFreqHz : UInt32 := 32000

def iwdgTimeoutMs : UInt32 := 3000

/-! ## Prescaler selection -/

def prescalerValue (pr : UInt32) : UInt32 := 4 <<< pr

/-- `ticks` in the loop of `iwdg_start`. The product is one of 32 bits. -/
def ticksFor (timeoutMs pr : UInt32) : UInt32 :=
  let div := prescalerValue pr
  let ticks := timeoutMs * (lsiFreqHz / 1000) / div
  if ticks = 0 then 1 else ticks

/-- The loop of `iwdg_start`, with so many prescalers to go from `pr` on: the
first that will do, with its reload value. -/
def selectFrom (timeoutMs : UInt32) : Nat → UInt32 → Option (UInt32 × UInt32)
  | 0, _ => none
  | count + 1, pr =>
      let ticks := ticksFor timeoutMs pr
      if ticks ≤ rlrMax + 1 then some (pr, ticks - 1)
      else selectFrom timeoutMs count (pr + 1)

/-- `pr` and `reload` after the loop and the clamp. -/
def selectTiming (timeoutMs : UInt32) : UInt32 × UInt32 :=
  (selectFrom timeoutMs 7 0).getD (6, rlrMax)

/-! ## Start and refresh -/

def iwdgStart (timeoutMs : UInt32) : Driver Unit := do
  let (pr, reload) := selectTiming timeoutMs
  Bus.write (.kr keyStart)
  Bus.write (.kr keyUnlock)
  Bus.write (.pr pr)
  Bus.write (.rlr reload)
  Bus.readWhile fun sr => sr &&& (srPvu ||| srRvu ||| srWvu) ≠ 0
  Bus.write (.winr winrDisabled)
  Bus.write (.kr keyReload)

def iwdgFeedIf (healthy : Bool) : Driver Unit :=
  if healthy then Bus.write (.kr keyReload) else pure ()

end OtaBoot.Iwdg
