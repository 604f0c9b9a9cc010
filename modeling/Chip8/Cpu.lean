import Chip8.Bits
import Chip8.Dialect
import Chip8.Disassembly
import Chip8.Position

/-!
# Registers and stack

The registers of the processor: program counter, index, sixteen data registers, and a stack of
sixteen return addresses. The stack pointer is the number of addresses on the stack; slots above it
keep what was last written there.

All of them hold integers. Instructions reduce what they compute to the width of its register, but a
host that sets registers directly may put any integer there, and then instructions go on from that
integer. A stack pointer may so come to lie outside of the stack; `Cpu.push` and `Cpu.pop` tell.

## Main definitions

* `Cpu` — the registers
* `Cpu.push`, `Cpu.pop` — calls and returns
* `ArithmeticOp.eval` — result and flag of an operation on two registers
-/

namespace Chip8

/-- The low eight bits of an integer. -/
def lowByte (n : Int) : Int := n % 256

/-- The low sixteen bits of an integer. -/
def lowWord (n : Int) : Int := n % 65536

/-- The registers of the processor. -/
structure Cpu where
  pc : Int
  index : Int
  v : Vector Int 16
  stack : Vector Int stackDepth
  sp : Int
  deriving DecidableEq

/-- Why a call or a return cannot be made. -/
inductive StackFault where
  /-- A call finds all slots in use. -/
  | full
  /-- A return finds no slot in use. -/
  | empty
  /-- The slot to use is none of the stack. -/
  | outside
  deriving DecidableEq, Repr

namespace Cpu

/-- The registers of a new processor. -/
def initial : Cpu := ⟨programStart, 0, Vector.replicate 16 0, Vector.replicate stackDepth 0, 0⟩

/-- The registers of a processor that begins anew. -/
def reset (_ : Cpu) : Cpu := initial

/-- The value of a register. -/
def reg (c : Cpu) (x : Register) : Int := c.v[x]

/-- The registers with one of them set. -/
def setReg (c : Cpu) (x : Register) (value : Int) : Cpu := { c with v := c.v.set x value }

/-- The registers with the low byte of a number in the flag register. -/
def setFlag (c : Cpu) (value : Int) : Cpu := c.setReg .flag (lowByte value)

/-! ### Program counter and stack -/

/-- One instruction on. -/
def advance (c : Cpu) : Cpu := { c with pc := lowWord (c.pc + 2) }

/-- One instruction back. -/
def rewind (c : Cpu) : Cpu := { c with pc := lowWord (c.pc - 2) }

/-- Puts the program counter on the stack and jumps. -/
def push (c : Cpu) (target : Int) : Except StackFault Cpu :=
  if stackDepth ≤ c.sp then .error .full
  else
    match position? stackDepth c.sp with
    | some slot => .ok { c with stack := c.stack.set slot c.pc, sp := c.sp + 1, pc := target }
    | none => .error .outside

/-- Takes the program counter from the stack. -/
def pop (c : Cpu) : Except StackFault Cpu :=
  if c.sp = 0 then .error .empty
  else
    match position? stackDepth (c.sp - 1) with
    | some slot => .ok { c with sp := c.sp - 1, pc := c.stack[slot] }
    | none => .error .outside

/-- Puts a flag into the flag register, if the operation has one, and then the result into its
register. In the flag register the result replaces the flag. -/
def setResult (c : Cpu) (x : Register) (result : Int × Option Int) : Cpu :=
  match result with
  | (value, some flag) => (c.setFlag flag).setReg x value
  | (value, none) => c.setReg x value

end Cpu

/-- The number of a truth value. -/
def flagOf (b : Bool) : Int := if b then 1 else 0

/-- Result and flag of an operation on the values of two registers. The flag is the carry of a sum,
says whether the greater value was the one subtracted from, or is what a shift moves out of the
byte. -/
def ArithmeticOp.eval (op : ArithmeticOp) (shiftUsesVy : Bool) (vx vy : Int) : Int × Option Int :=
  let source := if shiftUsesVy then vy else vx
  match op with
  | .copy => (vy, none)
  | .or => (Bits.or vx vy, none)
  | .and => (Bits.and vx vy, none)
  | .xor => (Bits.xor vx vy, none)
  | .add => (lowByte (vx + vy), some (flagOf (255 < vx + vy)))
  | .sub => (lowByte (vx - vy), some (flagOf (vy < vx)))
  | .shiftRight => (source / 2, some (source % 2))
  | .subReverse => (lowByte (vy - vx), some (flagOf (vx < vy)))
  | .shiftLeft => (lowByte (source * 2), some (source / 128))

end Chip8
