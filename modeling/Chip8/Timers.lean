/-!
# Timers

The delay timer and the sound timer. A tick takes one off each timer that is above zero; nothing
else lowers them.
-/

namespace Chip8

/-- The two timers. -/
structure Timers where
  delay : Int
  sound : Int
  deriving DecidableEq, Repr

namespace Timers

/-- Both timers at zero. -/
def zero : Timers := ⟨0, 0⟩

/-- Both timers back at zero. -/
def reset (t : Timers) : Timers := { t with delay := 0, sound := 0 }

/-- A timer one tick later. -/
def countDown (t : Int) : Int := if 0 < t then t - 1 else t

/-- Both timers one tick later. -/
def tick (t : Timers) : Timers := ⟨countDown t.delay, countDown t.sound⟩

/-- Whether the sound is on. -/
def soundActive (t : Timers) : Bool := 0 < t.sound

end Timers

end Chip8
