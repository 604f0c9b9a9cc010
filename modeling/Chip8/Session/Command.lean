import Chip8.Machine.Command
import Chip8.Session.Basic

/-!
# Session commands

The calls of a host to a session as data. Some of them read or write files, so a run goes from a
session and a file tree to others. A call that is refused leaves what it left when it was refused.

## Main definitions

* `Session.Command`, `Session.Reply` — a call and its answer
* `Session.Host` — a session and the files that it can reach
* `Session.perform` — one call
* `Session.run` — session and files after a list of calls
-/

namespace Chip8

namespace Session

/-- A call of a host. -/
inductive Command where
  | reset
  | loadRom (data : List Int)
  | loadRomFile (path : String)
  | softReset
  | hardReset
  | cycle
  | runCycles (count : Int)
  | tick
  | togglePause
  | keyDown (key : Int)
  | keyUp (key : Int)
  | setBreakpoint (address : Int)
  | clearBreakpoint (address : Int)
  | takeChanged
  | debugView
  | memoryDump (offset limit : Int)
  | drainDiagnostics
  | saveState
  | loadState (source : Snapshot.Source) (seed : Option Int)
  | saveStateFile (path : String)
  | loadStateFile (path : String) (seed : Option Int)

/-- The answer to a call. -/
inductive Reply where
  /-- The answer of the machine. -/
  | machine (reply : Machine.Reply)
  /-- The number of instructions that were executed. -/
  | count (executed : Nat)
  /-- The name of the file of a program. -/
  | fileName (name : String)

/-- A session and the files that it can reach. -/
structure Host where
  session : Session
  files : FileTree

/-- The answer of a call that answers nothing. -/
abbrev Reply.done : Reply := .machine .done

/-- Hands a call to the machine of the session. -/
def Host.delegate (h : Host) (command : Machine.Command) : Host × Except Error Reply :=
  let (machine, reply) := h.session.machine.perform command
  ({ h with session := { h.session with machine } }, reply.map .machine)

/-- Takes over what a call leaves of the session, and answers that it is done or refused. -/
def Host.become (h : Host) (result : Session × Except Error Unit) : Host × Except Error Reply :=
  ({ h with session := result.1 }, result.2.map fun _ => .done)

/-- Session and files after a call, and the answer or the reason why the call was refused. -/
def perform (h : Host) : Command → Host × Except Error Reply
  | .reset => h.delegate .reset
  | .loadRom data => h.become (h.session.loadRom data)
  | .loadRomFile path =>
    let (session, name) := h.session.loadRomFile h.files path
    ({ h with session }, name.map .fileName)
  | .softReset => h.become h.session.softReset
  | .hardReset => h.become (h.session.hardReset, .ok ())
  | .cycle => h.delegate .cycle
  | .runCycles count =>
    let (session, executed) := h.session.runCycles count
    ({ h with session }, executed.map .count)
  | .tick => h.delegate .tick
  | .togglePause => h.delegate .togglePause
  | .keyDown key => h.delegate (.keyDown key)
  | .keyUp key => h.delegate (.keyUp key)
  | .setBreakpoint address => h.delegate (.setBreakpoint address)
  | .clearBreakpoint address => h.delegate (.clearBreakpoint address)
  | .takeChanged => h.delegate .takeChanged
  | .debugView => h.delegate .debugView
  | .memoryDump offset limit => h.delegate (.memoryDump offset limit)
  | .drainDiagnostics => h.delegate .drainDiagnostics
  | .saveState => h.delegate .serialize
  | .loadState source seed => h.become (h.session.loadState source seed)
  | .saveStateFile path =>
    match h.session.saveStateFile h.files path with
    | (session, .ok files) => (⟨session, files⟩, .ok .done)
    | (session, .error reason) => ({ h with session }, .error reason)
  | .loadStateFile path seed => h.become (h.session.loadStateFile h.files path seed)

/-- Session and files after a list of calls. -/
def run (h : Host) (commands : List Command) : Host :=
  commands.foldl (fun h command => (perform h command).1) h

end Session

end Chip8
