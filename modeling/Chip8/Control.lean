import Chip8.AddressSet

/-!
# Execution control

Whether a machine runs, and the addresses at which it stops before it executes. Resuming on a
breakpoint arms a skip: the next look at that address passes once, so that the machine does not stop
again on the spot. Every other transition disarms the skip.

## Main definitions

* `Control` — running flag, breakpoints and skip
* `Control.shouldBreak` — the look before an instruction
* `Control.resume`, `Control.halt` — the transitions
-/

namespace Chip8

/-- The execution state of a machine. -/
structure Control where
  running : Bool
  breakpoints : AddressSet
  /-- The breakpoint that the next look passes. -/
  skip : Option Int
  deriving DecidableEq

namespace Control

/-- Halted, without breakpoints. -/
def initial : Control := ⟨false, .empty, none⟩

/-- The name of the execution state. -/
def stateName (c : Control) : String := if c.running then "RUNNING" else "HALTED"

/-! ### Breakpoints -/

/-- The sixteen-bit address of a number. -/
def addressOf (n : Int) : Int := n % 65536

/-- Adds the breakpoint of a number's sixteen-bit address. -/
def setBreakpoint (c : Control) (n : Int) : Control :=
  { c with breakpoints := c.breakpoints.insert (addressOf n) }

/-- Removes the breakpoint of a number's sixteen-bit address. -/
def clearBreakpoint (c : Control) (n : Int) : Control :=
  { c with breakpoints := c.breakpoints.erase (addressOf n) }

/-- Removes all breakpoints. -/
def clearBreakpoints (c : Control) : Control := { c with breakpoints := .empty }

/-- The look before the instruction at `pc`: whether to stop there. It uses the skip up. -/
def shouldBreak (c : Control) (pc : Int) : Control × Bool :=
  let looked := { c with skip := none }
  if c.skip = some pc then (looked, false)
  else if pc ∈ c.breakpoints then ({ looked with running := false }, true)
  else (looked, false)

/-! ### Transitions -/

/-- Runs on. If the address to go on from is known and is a breakpoint, it is passed once. -/
def resume (c : Control) (pc : Option Int) : Control :=
  { c with running := true, skip := pc.filter (· ∈ c.breakpoints) }

/-- Stops, and forgets a skip. -/
def halt (c : Control) : Control := { c with running := false, skip := none }

/-- The given running flag and breakpoints, without a skip. -/
def restore (running : Bool) (breakpoints : AddressSet) : Control := ⟨running, breakpoints, none⟩

end Control

end Chip8
