import Chip8.Cpu
import Chip8.Font
import Chip8.Framebuffer
import Chip8.Keypad
import Chip8.MersenneTwister
import Chip8.Timers

/-!
# Core

Everything that instructions read and write, and their execution. A step fetches the word at the
program counter, moves the program counter behind it, and executes the instruction of the word.

Three things that can go wrong are recorded as diagnostics and never as errors: a word that is no
instruction, a call with a full stack, and a return with an empty one. The last two leave the
program counter at the faulting instruction and ask for a halt.

Only a host that sets registers or a latch directly can bring about a fourth: an index that denotes
no slot of the stack or no key. The step then breaks off in the middle and is not counted.

## Main definitions

* `Diagnostic` — a recorded event, and `pushDiagnostic`, the log of the latest hundred
* `Core` — the state
* `Core.reset`, `Core.initial` — all parts reset, and new parts after a reset
* `Outcome` — how an instruction ends
* `Core.execute` — the effect of an instruction
* `Core.step` — one step
-/

namespace Chip8

/-! ### Diagnostics -/

/-- What a program can do wrong. -/
inductive DiagnosticKind where
  | unknownOpcode
  | stackOverflow
  | stackUnderflow
  deriving DecidableEq, Repr

namespace DiagnosticKind

/-- The name of a kind of event. -/
def name : DiagnosticKind → String
  | .unknownOpcode => "UNKNOWN_OPCODE"
  | .stackOverflow => "STACK_OVERFLOW"
  | .stackUnderflow => "STACK_UNDERFLOW"

/-- Whether an event halts the machine. -/
def halts : DiagnosticKind → Bool
  | .unknownOpcode => false
  | .stackOverflow | .stackUnderflow => true

end DiagnosticKind

/-- A recorded event: its kind, and the address and the word of the instruction. -/
structure Diagnostic where
  kind : DiagnosticKind
  pc : Int
  word : UInt16
  deriving DecidableEq, Repr

/-- The message of a recorded event. -/
def Diagnostic.message (d : Diagnostic) : String :=
  match d.kind with
  | .unknownOpcode => "Unknown opcode: 0x" ++ Numeral.hex 4 d.word.toNat
  | .stackOverflow => "CALL with full stack (" ++ Numeral.decimal stackDepth ++ " entries)"
  | .stackUnderflow => "RET with empty stack"

/-- The number of events that a log keeps. -/
abbrev diagnosticLimit : Nat := 100

/-- A log with an event added; the oldest ones go when there are too many. -/
def pushDiagnostic (log : List Diagnostic) (d : Diagnostic) : List Diagnostic :=
  (log ++ [d]).drop (log.length + 1 - diagnosticLimit)

/-! ### State -/

/-- What instructions read and write. -/
structure Core where
  dialect : Dialect
  cpu : Cpu
  memory : Memory memorySize
  framebuffer : Framebuffer
  keypad : Keypad
  timers : Timers
  random : MersenneTwister
  /-- Recorded events, the oldest first. -/
  diagnostics : List Diagnostic
  /-- The number of steps since the last reset. -/
  cycles : Nat
  deriving DecidableEq

namespace Core

/-! ### Resets -/

/-- New parts as they are before their first reset: the memory is blank, without the font, and the
random numbers have no seed. -/
def unset (dialect : Dialect) : Core where
  dialect := dialect
  cpu := .initial
  memory := .blank memorySize
  framebuffer := .blank
  keypad := .blank
  timers := .zero
  random := .unseeded
  diagnostics := []
  cycles := 0

/-- Resets every part: the memory is cleared and gets the font, registers, screen, keys and timers
are reset, recorded events and the number of steps are forgotten, and the random numbers begin anew
from a seed. The dialect stays. An instruction that asks for a halt is answered in its own cycle, so
there is no request that could be left over. -/
def reset (c : Core) (seed : Int) : Core :=
  { c with
    memory := c.memory.clear.load Font.base Font.rows
    cpu := c.cpu.reset
    cycles := 0
    diagnostics := []
    framebuffer := c.framebuffer.reset
    keypad := c.keypad.reset
    timers := c.timers.reset
    random := .ofSeed seed }

/-- New parts after their first reset. Without a seed the random numbers are those of what the clock
shows. -/
def initial (dialect : Dialect) (seed : Option Int) (clock : Int := 0) : Core :=
  (unset dialect).reset (seed.getD clock)

/-! ### Execution -/

/-- Whether the test of a skip holds. -/
def passes (c : Core) : SkipTest → Bool
  | .eqByte x nn => c.cpu.reg x == nn.toNat
  | .neByte x nn => c.cpu.reg x != nn.toNat
  | .eqRegister x y => c.cpu.reg x == c.cpu.reg y
  | .neRegister x y => c.cpu.reg x != c.cpu.reg y
  | .held x => c.keypad.isPressed (c.cpu.reg x)
  | .notHeld x => !c.keypad.isPressed (c.cpu.reg x)

/-- The values of the registers up to `x`. -/
def registersUpTo (c : Core) (x : Register) : List Int := c.cpu.v.toList.take (x.val + 1)

/-- The index after a transfer of the registers up to `x`. -/
def indexAfterTransfer (c : Core) (x : Register) : Int :=
  if c.dialect.loadStoreIncrementsIndex then lowWord (c.cpu.index + x.val + 1) else c.cpu.index

/-- Stores the registers up to `x` from the index on. -/
def storeRegisters (c : Core) (x : Register) : Core :=
  { c with
    memory := c.memory.load c.cpu.index (c.registersUpTo x)
    cpu := { c.cpu with index := c.indexAfterTransfer x } }

/-- Loads the registers up to `x` from the index on. -/
def loadRegisters (c : Core) (x : Register) : Core :=
  { c with
    cpu :=
      { c.cpu with
        v := Vector.ofFn fun i =>
          if i ≤ x then ((c.memory.read (c.cpu.index + i.val)).toNat : Int) else c.cpu.v[i]
        index := c.indexAfterTransfer x } }

/-- Stores the three decimal digits of a register from the index on. -/
def storeDecimal (c : Core) (x : Register) : Core :=
  let value := c.cpu.reg x
  { c with memory := c.memory.load c.cpu.index [value / 100, value / 10 % 10, value % 10] }

/-- Draws the `n` bytes from the index on as a sprite at the values of two registers. -/
def drawSprite (c : Core) (x y : Register) (n : Fin 16) : Core :=
  let rows := (c.memory.dump c.cpu.index n.val).map fun b => (b.toNat : Int)
  let (framebuffer, collision) := c.framebuffer.draw (c.cpu.reg x) (c.cpu.reg y) rows
  { c with framebuffer, cpu := c.cpu.setFlag (flagOf collision) }

/-- How an instruction ends. -/
inductive Outcome where
  | done
  /-- It did something wrong that is recorded. -/
  | event (kind : DiagnosticKind)
  /-- It broke off at an index that denotes no place. -/
  | broken
  deriving DecidableEq, Repr

/-- Looks at the keys, and repeats the instruction unless the wait completes. -/
def awaitKey (c : Core) (x : Register) : Core × Outcome :=
  match c.keypad.poll c.dialect.keyWaitOnRelease with
  | .ok (keypad, none) => ({ c with keypad, cpu := c.cpu.rewind }, .done)
  | .ok (keypad, some key) => ({ c with keypad, cpu := c.cpu.setReg x key }, .done)
  | .error _ => (c, .broken)

/-- Calls a subroutine. A full stack makes the instruction repeat. -/
def callAt (c : Core) (target : Int) : Core × Outcome :=
  match c.cpu.push target with
  | .ok cpu => ({ c with cpu }, .done)
  | .error .outside => (c, .broken)
  | .error _ => ({ c with cpu := c.cpu.rewind }, .event .stackOverflow)

/-- Returns from a subroutine. An empty stack makes the instruction repeat; a stack pointer outside
of the stack has already moved when the slot is missed. -/
def returnBack (c : Core) : Core × Outcome :=
  match c.cpu.pop with
  | .ok cpu => ({ c with cpu }, .done)
  | .error .outside => ({ c with cpu := { c.cpu with sp := c.cpu.sp - 1 } }, .broken)
  | .error _ => ({ c with cpu := c.cpu.rewind }, .event .stackUnderflow)

/-- Sets a register to a random byte, masked. -/
def drawRandom (c : Core) (x : Register) (nn : UInt8) : Core :=
  let (byte, random) := c.random.nextByte
  { c with random, cpu := c.cpu.setReg x (byte &&& nn).toNat }

/-- The effect of an instruction, after the program counter has moved behind it, and how it
ends. -/
def execute (c : Core) : Instruction → Core × Outcome
  | .clear => ({ c with framebuffer := c.framebuffer.clear }, .done)
  | .ret => c.returnBack
  | .sys _ => (c, .event .unknownOpcode)
  | .jump address => ({ c with cpu := { c.cpu with pc := address.toNat } }, .done)
  | .call address => c.callAt address.toNat
  | .skip test => (if c.passes test then { c with cpu := c.cpu.advance } else c, .done)
  | .loadByte x nn => ({ c with cpu := c.cpu.setReg x nn.toNat }, .done)
  | .addByte x nn => ({ c with cpu := c.cpu.setReg x (lowByte (c.cpu.reg x + nn.toNat)) }, .done)
  | .arithmetic op x y =>
    let result := op.eval c.dialect.shiftUsesVy (c.cpu.reg x) (c.cpu.reg y)
    ({ c with cpu := c.cpu.setResult x result }, .done)
  | .loadIndex address => ({ c with cpu := { c.cpu with index := address.toNat } }, .done)
  | .jumpOffset address =>
    ({ c with cpu := { c.cpu with pc := lowWord (address.toNat + c.cpu.reg .zero) } }, .done)
  | .random x nn => (c.drawRandom x nn, .done)
  | .draw x y n => (c.drawSprite x y n, .done)
  | .readDelay x => ({ c with cpu := c.cpu.setReg x c.timers.delay }, .done)
  | .waitKey x => c.awaitKey x
  | .setDelay x => ({ c with timers := { c.timers with delay := c.cpu.reg x } }, .done)
  | .setSound x => ({ c with timers := { c.timers with sound := c.cpu.reg x } }, .done)
  | .addIndex x =>
    ({ c with cpu := { c.cpu with index := lowWord (c.cpu.index + c.cpu.reg x) } }, .done)
  | .glyph x =>
    let address := lowWord (c.cpu.reg x * Font.glyphHeight + Font.base)
    ({ c with cpu := { c.cpu with index := address } }, .done)
  | .decimal x => (c.storeDecimal x, .done)
  | .store x => (c.storeRegisters x, .done)
  | .load x => (c.loadRegisters x, .done)
  | .unknown _ => (c, .event .unknownOpcode)

/-! ### Steps -/

/-- The word at the program counter. -/
def fetch (c : Core) : UInt16 := c.memory.readWord c.cpu.pc

/-- What a step leaves: the state, the word that was executed, and how that ended. -/
structure StepResult where
  core : Core
  word : UInt16
  outcome : Outcome

/-- One step. -/
def step (c : Core) : StepResult :=
  let word := c.fetch
  match execute { c with cpu := c.cpu.advance } (Instruction.ofWord word) with
  | (next, .done) => ⟨{ next with cycles := next.cycles + 1 }, word, .done⟩
  | (next, .event kind) =>
    let event : Diagnostic := ⟨kind, c.cpu.pc, word⟩
    ⟨{ next with
        cycles := next.cycles + 1
        diagnostics := pushDiagnostic next.diagnostics event }, word, .event kind⟩
  | (next, .broken) => ⟨next, word, .broken⟩

end Core

end Chip8
