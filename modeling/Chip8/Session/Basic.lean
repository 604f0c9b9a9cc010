import Chip8.FileTree
import Chip8.Machine.Basic

/-!
# Sessions

A session is the machine that a host works with, together with the program that it loaded last. A
state is loaded by putting a new machine into the place of the old one.

A call that can be refused gives the session as it stands at the refusal, beside the reason. What
was changed before a check that fails stays changed; it is the order of checks and changes that
decides whether a refused call leaves a trace.

## Main definitions

* `Session` — machine and program
* `Session.loadRom`, `Session.softReset`, `Session.hardReset` — start, start again, stop for good
* `Session.runCycles` — instructions up to a count, as long as the machine executes
* `Session.loadState`, `Session.saveStateFile`, `Session.loadStateFile` — snapshots
-/

namespace Chip8

/-- A machine and the program that was loaded last. -/
structure Session where
  machine : Machine
  rom : Option Bytes
  deriving DecidableEq

namespace Session

/-- A session of a machine. -/
def ofMachine (machine : Machine) : Session := ⟨machine, none⟩

/-! ### Programs -/

/-- Checks a program, resets, loads the program into the machine and remembers it. The machine
checks the program again. -/
def loadRom (s : Session) (data : List Int) (clock : Int := 0) : Session × Except Error Unit :=
  match Machine.checkRom data with
  | .error reason => (s, .error reason)
  | .ok rom =>
    match (s.machine.reset clock).loadRom (rom.map fun b => (b.toNat : Int)) with
    | (machine, .ok ()) => (⟨machine, some rom⟩, .ok ())
    | (machine, .error reason) => ({ s with machine }, .error reason)

/-- Loads the program of a file, and gives the name of the file. -/
def loadRomFile (s : Session) (files : FileTree) (path : String) (clock : Int := 0) :
    Session × Except Error String :=
  match files.read path with
  | .error reason => (s, .error (.file reason))
  | .ok contents =>
    let (next, answer) := s.loadRom (contents.map fun b => (b.toNat : Int)) clock
    (next, answer.map fun _ => FileTree.baseName path)

/-- Resets the machine; the program stays remembered. -/
def reset (s : Session) (clock : Int := 0) : Session := { s with machine := s.machine.reset clock }

/-- Resets, and loads the remembered program into the machine again. The machine checks the program,
and when it does so it has been reset. -/
def softReset (s : Session) (clock : Int := 0) : Session × Except Error Unit :=
  match s.rom with
  | none => (s, .error .noRom)
  | some rom =>
    let (machine, answer) := (s.machine.reset clock).loadRom (rom.map fun b => (b.toNat : Int))
    ({ s with machine }, answer)

/-- Resets the machine and forgets the program. -/
def hardReset (s : Session) (clock : Int := 0) : Session := ⟨s.machine.reset clock, none⟩

/-! ### Execution -/

/-- Executes up to `count` instructions and stops at the first call that executes none or breaks
off; gives the number of instructions executed. -/
def runUpTo (m : Machine) : Nat → Machine × Except Error Nat
  | 0 => (m, .ok 0)
  | count + 1 =>
    match m.cycle with
    | (next, .ok none) => (next, .ok 0)
    | (next, .ok (some _)) =>
      let (last, executed) := runUpTo next count
      (last, executed.map (· + 1))
    | (next, .error reason) => (next, .error reason)

/-- Executes up to a number of instructions; none if it is negative. -/
def runCycles (s : Session) (count : Int) : Session × Except Error Nat :=
  let (machine, executed) := runUpTo s.machine count.toNat
  ({ s with machine }, executed)

/-! ### Snapshots -/

/-- The state of the machine as a snapshot. -/
def saveState (s : Session) : Except Error Bytes := s.machine.serialize

/-- Puts the machine of a snapshot into the place of the current one. -/
def loadState (s : Session) (source : Snapshot.Source) (seed : Option Int) (clock : Int := 0) :
    Session × Except Error Unit :=
  match Machine.deserialize source seed clock with
  | .ok machine => ({ s with machine }, .ok ())
  | .error reason => (s, .error reason)

/-- The session with its machine paused. -/
def paused (s : Session) : Session := { s with machine := s.machine.pause }

/-- Pauses the machine and writes its state to a file. The machine is paused even if the state
cannot be encoded or written. -/
def saveStateFile (s : Session) (files : FileTree) (path : String) :
    Session × Except Error FileTree :=
  (s.paused, do
    let data ← s.paused.saveState
    (files.write path data).mapError Error.file)

/-- Puts the machine of a snapshot in a file, paused, into the place of the current one. -/
def loadStateFile (s : Session) (files : FileTree) (path : String) (seed : Option Int)
    (clock : Int := 0) : Session × Except Error Unit :=
  match files.read path with
  | .error reason => (s, .error (.file reason))
  | .ok contents =>
    match Machine.deserialize (.bytes contents) seed clock with
    | .ok machine => ({ s with machine := machine.pause }, .ok ())
    | .error reason => (s, .error reason)

end Session

end Chip8
