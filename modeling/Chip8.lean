import Chip8.Config
import Chip8.RomDirectory
import Chip8.Proofs.Session.Atomicity
import Chip8.Proofs.Snapshot.Checked
import Chip8.Proofs.Snapshot.Format
import Chip8.Proofs.Machine.BreakpointSets
import Chip8.Proofs.Machine.Breakpoints
import Chip8.Proofs.Machine.Restored
import Chip8.Proofs.Machine.Reset
import Chip8.Proofs.Machine.Subroutine
import Chip8.Proofs.Snapshot.Canonical
import Chip8.Proofs.Machine.ScreenUpdates
import Chip8.Proofs.Machine.KeyWait
import Chip8.Proofs.Memory.LastWrite
import Chip8.Proofs.Session.LastProgram
import Chip8.Proofs.Session.StateFiles
import Chip8.Proofs.Machine.Sprites
import Chip8.Proofs.Core.Frame
import Chip8.Proofs.Machine.Frame
import Chip8.Proofs.Session.RunCycles
import Chip8.Proofs.Machine.StackFaults
import Chip8.Proofs.Core.Arithmetic
import Chip8.Proofs.Machine.Glyphs
import Chip8.Proofs.Config
import Chip8.Proofs.Machine.DebugWindow
import Chip8.Proofs.Machine.EventLog
import Chip8.Proofs.Core.ShownEffect
import Chip8.Proofs.Config.Acceptance
import Chip8.Proofs.Core.Transfer
import Chip8.Proofs.Machine.LoadRom
import Chip8.Proofs.Machine.Timers
import Chip8.Proofs.Machine.HostEvents
import Chip8.Proofs.Config.Seed
import Chip8.Proofs.RomDirectory
