import LabComputers.Lib.Transition
import LabComputers.Proj.Mouse

/-!
# `game_loop`

A notification may carry any of the three interrupts; `game_loop` calls their handlers in the order
mouse, keyboard, timer and tests for `EXIT` only before the next notification.  What the handlers
obtain from outside comes with each interrupt: the replies to their port reads, the registers of
the real-time clock and the results of `rand()`.

`vg_ih` writes the frame buffer and the scratch string `str` only, and is modelled on its own.
-/

namespace LabComputers

open Port

/-- One interrupt with what its handler obtains from outside. -/
inductive Interrupt where
  | mouse (replies : ℕ → Reply)
  | kbc (replies : ℕ → Reply)
  | timer (rtcHours rtcMinutes : UInt8) (rand : ℕ → ℕ)

/-- `to_BCD` -/
def toBCD (value : UInt8) : UInt8 := ((value &&& 0xF0) >>> 4) * 10 + (value &&& 0x0F)

/-- `rtc_ih`, given the registers that `read_time` finds. -/
def rtcIh (rtcHours rtcMinutes : UInt8) (g : Globals) : Globals :=
  { g with hours := toBCD rtcHours, minutes := toBCD rtcMinutes }

/-- The timer branch of `game_loop`. -/
def timerIh (rtcHours rtcMinutes : UInt8) (rand : ℕ → ℕ) (g : Globals) : Globals :=
  let g := { g with frameCounter := g.frameCounter + 1 }
  if g.frameCounter % frameNumber = 0 then
    gameIh rand (if g.gameState = .menu then rtcIh rtcHours rtcMinutes g else g)
  else g

/-- The handler of one interrupt. -/
def handle (g : Globals) : Interrupt → Globals
  | .mouse replies => (mouseIh g).value replies
  | .kbc replies => (kbcIh g).value replies
  | .timer rtcHours rtcMinutes rand => timerIh rtcHours rtcMinutes rand g

/-- A message received by `game_loop`: the interrupts it notifies. -/
structure Notification where
  mouse : Option (ℕ → Reply)
  kbc : Option (ℕ → Reply)
  timer : Option (UInt8 × UInt8 × (ℕ → ℕ))

/-- The handlers called for a notification, in order. -/
def Notification.interrupts (n : Notification) : List Interrupt :=
  (n.mouse.map Interrupt.mouse).toList ++ (n.kbc.map Interrupt.kbc).toList ++
    (n.timer.map fun t => Interrupt.timer t.1 t.2.1 t.2.2).toList

/-- The loop has ended. -/
def exited (g : Globals) : Bool := g.gameState = .exit

/-- The state when `game_loop` reaches its `while`, `lb` being the leaderboard that was read. -/
def loopStart (lb : Leaderboard) : Globals := { gameInitialize .atStart with lb := lb }

/-- The states of a run of `game_loop`, before, between and after the handlers. -/
def Reachable (g : Globals) : Prop :=
  ∃ lb, Transition.Visits handle exited (fun b => ∃ n : Notification, b = n.interrupts)
    (loopStart lb) g

end LabComputers
