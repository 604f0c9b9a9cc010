import Chip8.Machine.Basic

/-!
# Machine commands

The calls of a host to a machine as data, so that whole runs are lists of commands. A command that
is refused leaves the machine as it was, but for a cycle whose instruction breaks off.

## Main definitions

* `Machine.Command`, `Machine.Reply` — a call and its answer
* `Machine.perform` — one call
* `Machine.run` — the machine after a list of calls
-/

namespace Chip8

namespace Machine

/-- A call of a host. -/
inductive Command where
  | reset
  | loadRom (data : List Int)
  | cycle
  | tick
  | keyDown (key : Int)
  | keyUp (key : Int)
  | setBreakpoint (address : Int)
  | clearBreakpoint (address : Int)
  | clearBreakpoints
  | pause
  | resume
  | togglePause
  | hardStop
  | takeChanged
  | debugView
  | memoryDump (offset limit : Int)
  | drainDiagnostics
  | serialize
  deriving DecidableEq, Repr

/-- The answer to a call. -/
inductive Reply where
  | done
  /-- Whether the machine is halted now. -/
  | paused (halted : Bool)
  /-- The word that was executed, if one was. -/
  | executed (word : Option UInt16)
  | pixels (pixels : Option Pixels)
  | view (view : DebugView)
  | bytes (data : Bytes)
  | diagnostics (events : List Diagnostic)
  deriving DecidableEq

/-- The machine after a call, and the answer or the reason why the call was refused. -/
def perform (m : Machine) : Command → Machine × Except Error Reply
  | .reset => (m.reset, .ok .done)
  | .loadRom data =>
    let (next, answer) := m.loadRom data
    (next, answer.map fun _ => .done)
  | .cycle =>
    let (next, word) := m.cycle
    (next, word.map .executed)
  | .tick => (m.tick, .ok .done)
  | .keyDown key => (m.keyDown key, .ok .done)
  | .keyUp key => (m.keyUp key, .ok .done)
  | .setBreakpoint address => (m.setBreakpoint address, .ok .done)
  | .clearBreakpoint address => (m.clearBreakpoint address, .ok .done)
  | .clearBreakpoints => (m.clearBreakpoints, .ok .done)
  | .pause => (m.pause, .ok .done)
  | .resume => (m.resume, .ok .done)
  | .togglePause =>
    let (next, halted) := m.togglePause
    (next, .ok (.paused halted))
  | .hardStop => (m.pause, .ok .done)
  | .takeChanged =>
    let (next, pixels) := m.takeChanged
    (next, .ok (.pixels pixels))
  | .debugView => (m, .ok (.view m.debugView))
  | .memoryDump offset limit => (m, .ok (.bytes (m.memoryDump offset limit)))
  | .drainDiagnostics =>
    let (next, events) := m.drainDiagnostics
    (next, .ok (.diagnostics events))
  | .serialize => (m, m.serialize.map .bytes)

/-- The machine after a list of calls. -/
def run (m : Machine) (commands : List Command) : Machine :=
  commands.foldl (fun m command => (m.perform command).1) m

/-- The answers to a list of calls. -/
def replies (m : Machine) : List Command → List (Except Error Reply)
  | [] => []
  | command :: rest =>
    let (next, reply) := m.perform command
    reply :: next.replies rest

end Machine

end Chip8
