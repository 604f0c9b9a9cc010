import Chip8.Control
import Chip8.Core
import Chip8.Snapshot.Codec

/-!
# Machines

A machine is a core under execution control, together with the seed that every reset applies again.
Its operations are those that a host can call; each takes a machine to the next one.

## Main definitions

* `Machine` — core, control and seed
* `Machine.reset`, `Machine.loadRom` — the start of a program
* `Machine.cycle`, `Machine.tick` — one instruction and one tick of the timers, while it runs
* `Machine.debugView` — what a debugger shows
* `Machine.image`, `Machine.ofImage` — the machine as plain data, and back
* `Machine.serialize`, `Machine.deserialize` — the machine as a snapshot, and back
-/

namespace Chip8

/-- The greatest number of bytes of a program. -/
abbrev romCapacity : Nat := memorySize - programStart

/-- A machine. -/
structure Machine where
  core : Core
  control : Control
  seed : Option Int
  deriving DecidableEq

namespace Machine

/-- Whether the machine runs. -/
def running (m : Machine) : Bool := m.control.running

/-- The breakpoints of the machine. -/
def breakpoints (m : Machine) : AddressSet := m.control.breakpoints

/-! ### Programs -/

/-- Resets all parts of the machine and halts. The random numbers begin anew from the seed, or from
what the clock shows if there is none. Dialect, seed and breakpoints stay. -/
def reset (m : Machine) (clock : Int := 0) : Machine :=
  { m with core := m.core.reset (m.seed.getD clock), control := m.control.halt }

/-- A machine that was never used: new parts, and a first reset. -/
def create (dialect : Dialect) (seed : Option Int) (clock : Int := 0) : Machine :=
  (Machine.mk (.unset dialect) .initial seed).reset clock

/-- A byte string that fits into the program area. -/
def checkRom (data : List Int) : Except Error Bytes := do
  let rom ← Bytes.ofInts data
  if romCapacity < rom.length then .error (.romTooLarge rom.length romCapacity) else .ok rom

/-- Puts a program into the program area and runs. -/
def startRom (m : Machine) (rom : Bytes) : Machine :=
  { m with
    core :=
      { m.core with
        memory := m.core.memory.load programStart (rom.map fun b => (b.toNat : Int)) }
    control := m.control.resume none }

/-- Checks a program, puts it into the program area and runs. -/
def loadRom (m : Machine) (data : List Int) : Machine × Except Error Unit :=
  match checkRom data with
  | .ok rom => (m.startRom rom, .ok ())
  | .error reason => (m, .error reason)

/-! ### Execution -/

/-- Whether the machine has to halt after an instruction that ended in the given way. -/
def haltsAfter : Core.Outcome → Bool
  | .event kind => kind.halts
  | .done | .broken => false

/-- Executes an instruction if the machine runs and does not stop at a breakpoint, and gives the
word that was executed. An instruction that broke off leaves what it did so far. -/
def cycle (m : Machine) : Machine × Except Error (Option UInt16) :=
  if m.control.running then
    match m.control.shouldBreak m.core.cpu.pc with
    | (control, true) => ({ m with control }, .ok none)
    | (control, false) =>
      let result := m.core.step
      ({ m with
          core := result.core
          control := if haltsAfter result.outcome then control.halt else control },
        if result.outcome = .broken then .error .outOfRange else .ok (some result.word))
  else (m, .ok none)

/-- Counts the timers down if the machine runs. -/
def tick (m : Machine) : Machine :=
  if m.control.running then { m with core := { m.core with timers := m.core.timers.tick } } else m

/-! ### Keys -/

/-- A key goes down. -/
def keyDown (m : Machine) (key : Int) : Machine :=
  { m with core := { m.core with keypad := m.core.keypad.press key } }

/-- A key goes up. -/
def keyUp (m : Machine) (key : Int) : Machine :=
  { m with core := { m.core with keypad := m.core.keypad.release key } }

/-! ### Control -/

/-- Adds a breakpoint. -/
def setBreakpoint (m : Machine) (address : Int) : Machine :=
  { m with control := m.control.setBreakpoint address }

/-- Removes a breakpoint. -/
def clearBreakpoint (m : Machine) (address : Int) : Machine :=
  { m with control := m.control.clearBreakpoint address }

/-- Removes all breakpoints. -/
def clearBreakpoints (m : Machine) : Machine :=
  { m with control := m.control.clearBreakpoints }

/-- Halts. -/
def pause (m : Machine) : Machine := { m with control := m.control.halt }

/-- Runs on from the program counter. -/
def resume (m : Machine) : Machine :=
  { m with control := m.control.resume (some m.core.cpu.pc) }

/-- Pauses a running machine and resumes a halted one; the answer says whether it is halted now. -/
def togglePause (m : Machine) : Machine × Bool :=
  if m.control.running then (m.pause, true) else (m.resume, false)

/-! ### Views -/

/-- The pixels if they changed since they were last taken. -/
def takeChanged (m : Machine) : Machine × Option Pixels :=
  let (framebuffer, pixels) := m.core.framebuffer.takeChanged
  ({ m with core := { m.core with framebuffer } }, pixels)

/-- The recorded events, which are forgotten. -/
def drainDiagnostics (m : Machine) : Machine × List Diagnostic :=
  ({ m with core := { m.core with diagnostics := [] } }, m.core.diagnostics)

/-- A run of memory, cut at its ends; empty if it does not begin in memory. -/
def memoryDump (m : Machine) (offset limit : Int) : Bytes :=
  if offset < 0 ∨ limit ≤ 0 ∨ (memorySize : Int) ≤ offset then []
  else m.core.memory.dump offset (min limit (memorySize - offset))

/-- What a debugger shows of a machine. -/
structure DebugView where
  pc : Int
  index : Int
  sp : Int
  delay : Int
  sound : Int
  registers : List Int
  stack : List Int
  disassembly : List String
  breakpoints : AddressSet
  running : Bool
  deriving DecidableEq

/-- What a debugger shows. -/
def debugView (m : Machine) : DebugView where
  pc := m.core.cpu.pc
  index := m.core.cpu.index
  sp := m.core.cpu.sp
  delay := m.core.timers.delay
  sound := m.core.timers.sound
  registers := m.core.cpu.v.toList
  stack := m.core.cpu.stack.toList
  disassembly := m.core.memory.window m.core.cpu.pc
  breakpoints := m.control.breakpoints
  running := m.control.running

/-! ### Snapshots -/

/-- The machine as plain data. -/
def image (m : Machine) : Image where
  memory := m.core.memory.toList
  registers := m.core.cpu.v.toList
  index := m.core.cpu.index
  pc := m.core.cpu.pc
  stack := m.core.cpu.stack.toList
  sp := m.core.cpu.sp
  delay := m.core.timers.delay
  sound := m.core.timers.sound
  framebuffer := m.core.framebuffer.pixels.toList
  changed := m.core.framebuffer.changed
  keys := m.core.keypad.held.toList.map fun down => if down then 1 else 0
  running := m.control.running
  dialect := m.core.dialect
  latch := m.core.keypad.latch
  breakpoints := m.control.breakpoints

/-- The registers of an image. It has as many registers and stack slots as a processor; any that
were missing would be zero. -/
def cpuOfImage (image : Image) : Cpu :=
  let registers := image.registers.toArray
  let stack := image.stack.toArray
  { pc := image.pc
    index := image.index
    v := Vector.ofFn fun i => registers.getD i 0
    stack := Vector.ofFn fun i => stack.getD i 0
    sp := image.sp }

/-- Brings the parts of a machine into the state of an image. It is refused if the image has another
number of pixels or keys than the machine. -/
def restore (m : Machine) (image : Image) : Except Error Machine := do
  let framebuffer ← Framebuffer.restore image.framebuffer image.changed
  let keypad ← Keypad.restore (image.keys.map (· != 0)) image.latch
  .ok
    { m with
      core :=
        { m.core with
          memory := m.core.memory.load 0 (image.memory.map fun b => (b.toNat : Int))
          cpu := cpuOfImage image
          timers := ⟨image.delay, image.sound⟩
          framebuffer, keypad }
      control := .restore image.running image.breakpoints }

/-- The machine of an image: a new machine that is brought into its state. It has no recorded events
and has counted no steps, and its random numbers begin anew. -/
def ofImage (image : Image) (seed : Option Int) (clock : Int := 0) : Except Error Machine :=
  (create image.dialect seed clock).restore image

/-- The machine as a snapshot. -/
def serialize (m : Machine) : Except Error Bytes := Snapshot.encode m.image

/-- The machine of a snapshot. -/
def deserialize (source : Snapshot.Source) (seed : Option Int) (clock : Int := 0) :
    Except Error Machine := do
  let image ← (Snapshot.decode source).mapError Error.snapshot
  ofImage image seed clock

end Machine

end Chip8
