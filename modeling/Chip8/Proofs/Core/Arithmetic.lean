import Chip8.Proofs.Core.Step
import Chip8.Proofs.Cpu

/-!
# Operations with a flag

Five of the operations on two registers have a flag besides their result. Both are computed from the
values that the registers held before, the flag is written first and the result after it. So any of
the registers may be the flag register: a source is read before the flag is there, and a target
loses the flag to the result.

The flag of a sum is its carry, that of a difference says whether the greater value was the one
subtracted from, and that of a shift is the bit that leaves the byte. A shift reads the one or the
other register, as the dialect has it, and writes the first in either case.

## Main definitions

* `ComputesWithFlag` — the operations with a flag, by the last digit of their words
* `IsFlagOf` — the flag of a condition

## Main results

* `ComputesWithFlag.eval` — what they say of `ArithmeticOp.eval`
* `Instruction.ofWord_arithmetic` — the words of operations on two registers
* `Core.step_computesWithFlag` — result and flag after a step, for all registers and dialects
-/

namespace Chip8

/-! ### Results and flags -/

/-- The operations with a flag: the last digit of the word, the result, and when the flag is set.
The values are those of the two registers, and `source` is the one that a shift reads. -/
inductive ComputesWithFlag (source vx vy : Int) : Nat → Int → Prop → Prop where
  | sum : ComputesWithFlag source vx vy 0x4 ((vx + vy) % 256) (255 < vx + vy)
  | difference : ComputesWithFlag source vx vy 0x5 ((vx - vy) % 256) (vy < vx)
  | shiftRight : ComputesWithFlag source vx vy 0x6 (source / 2) (source % 2 = 1)
  | reverseDifference : ComputesWithFlag source vx vy 0x7 ((vy - vx) % 256) (vx < vy)
  | shiftLeft : ComputesWithFlag source vx vy 0xE (2 * source % 256) (128 ≤ source)

/-- A flag that is one when a condition holds, and zero when it does not. -/
def IsFlagOf (condition : Prop) (flag : Int) : Prop :=
  (condition → flag = 1) ∧ (¬ condition → flag = 0)

theorem isFlagOf_flagOf (condition : Prop) [Decidable condition] :
    IsFlagOf condition (flagOf (decide condition)) := by
  constructor
  · intro h
    rw [decide_eq_true h]
    rfl
  · intro h
    rw [decide_eq_false h]
    rfl

/-- A flag of a condition is kept when it is reduced to a byte. -/
theorem IsFlagOf.lowByte {condition : Prop} {flag : Int} (h : IsFlagOf condition flag) :
    IsFlagOf condition (lowByte flag) := by
  constructor
  · intro hc
    rw [h.1 hc]
    rfl
  · intro hc
    rw [h.2 hc]
    rfl

/-- **What an operation computes.** Only the shift to the left needs its source to be a byte, since
its flag is everything that leaves the byte. -/
theorem ComputesWithFlag.eval {shiftUsesVy : Bool} {vx vy value : Int} {digit : Nat}
    {condition : Prop}
    (h : ComputesWithFlag (if shiftUsesVy then vy else vx) vx vy digit value condition)
    (hsource : IsByte (if shiftUsesVy then vy else vx)) :
    ∃ op flag, ArithmeticOp.ofDigit? digit = some op ∧
      op.eval shiftUsesVy vx vy = (value, some flag) ∧ IsFlagOf condition flag := by
  obtain ⟨h₀, hlt⟩ := hsource
  cases h with
  | sum => exact ⟨.add, _, rfl, rfl, isFlagOf_flagOf _⟩
  | difference => exact ⟨.sub, _, rfl, rfl, isFlagOf_flagOf _⟩
  | reverseDifference => exact ⟨.subReverse, _, rfl, rfl, isFlagOf_flagOf _⟩
  | shiftRight => exact ⟨.shiftRight, _, rfl, rfl, fun hodd => hodd, fun heven => by omega⟩
  | shiftLeft =>
    refine ⟨.shiftLeft, (if shiftUsesVy then vy else vx) / 128, rfl, ?_, ?_⟩
    · rw [Int.mul_comm]
      rfl
    · constructor
      · intro hset
        omega
      · intro hset
        omega

theorem ComputesWithFlag.digit_lt {source vx vy value : Int} {digit : Nat} {condition : Prop}
    (h : ComputesWithFlag source vx vy digit value condition) : digit < 16 := by
  cases h <;> decide

/-! ### Words -/

/-- The words of the operations on two registers, from their four digits. -/
theorem Instruction.ofWord_arithmetic {w : UInt16} {x y : Register} {digit : Nat}
    {op : ArithmeticOp} (hw : w.toNat = 0x8000 + x.val * 256 + y.val * 16 + digit)
    (hlt : digit < 16) (hop : ArithmeticOp.ofDigit? digit = some op) :
    Instruction.ofWord w = .arithmetic op x y := by
  have hgroup : w.toNat / 4096 = 0x8 := by omega
  have hx : Word.x w = x := Fin.ext (by show w.toNat / 256 % 16 = x.val; omega)
  have hy : Word.y w = y := Fin.ext (by show w.toNat / 16 % 16 = y.val; omega)
  have hdigit : w.toNat % 16 = digit := by omega
  simp only [Instruction.ofWord, hgroup, hdigit, hop, hx, hy]

/-! ### Steps -/

namespace Core

variable {c : Core}

theorem step_arithmetic {op : ArithmeticOp} {x y : Register}
    (hi : Instruction.ofWord c.fetch = .arithmetic op x y) :
    c.step =
      ⟨{ c with
          cpu := c.cpu.advance.setResult x
            (op.eval c.dialect.shiftUsesVy (c.cpu.reg x) (c.cpu.reg y))
          cycles := c.cycles + 1 }, c.fetch, .done⟩ := by
  rw [step_eq, hi]
  rfl

/-- **Result and flag, whichever registers they are in.** With bytes in the registers, the two
operands and the target may be any of them, the same one twice or the flag register, and shifts may
read either operand. The target has the result, the flag register has the flag unless it is the
target, and both are those of the values before the step. Nothing else is different but pc, which is
behind the instruction, and the number of steps. -/
theorem step_computesWithFlag (hreg : ∀ r, IsByte (c.cpu.reg r)) (x y : Register) {digit : Nat}
    {value : Int} {condition : Prop}
    (hlaw : ComputesWithFlag (if c.dialect.shiftUsesVy then c.cpu.reg y else c.cpu.reg x)
      (c.cpu.reg x) (c.cpu.reg y) digit value condition)
    (hword : c.fetch.toNat = 0x8000 + x.val * 256 + y.val * 16 + digit) :
    (∃ v, c.step =
      ⟨{ c with cpu := { c.cpu with pc := (c.cpu.pc + 2) % 65536, v }, cycles := c.cycles + 1 },
        c.fetch, .done⟩) ∧
      c.step.core.cpu.reg x = value ∧
      (x ≠ .flag → IsFlagOf condition (c.step.core.cpu.reg .flag)) ∧
      ∀ r, r ≠ x → r ≠ .flag → c.step.core.cpu.reg r = c.cpu.reg r := by
  -- whichever register a shift reads, it holds a byte
  have hsource : IsByte (if c.dialect.shiftUsesVy then c.cpu.reg y else c.cpu.reg x) := by
    split
    · exact hreg y
    · exact hreg x
  obtain ⟨op, flag, hop, heval, hflag⟩ := hlaw.eval hsource
  have hi := Instruction.ofWord_arithmetic hword hlaw.digit_lt hop
  have hstep := step_arithmetic hi
  rw [heval] at hstep
  have hcpu : c.step.core.cpu = c.cpu.advance.setResult x (value, some flag) := by rw [hstep]
  refine ⟨⟨_, hstep⟩, ?_, ?_, ?_⟩
  · rw [hcpu, Cpu.reg_setResult_self]
  · -- the flag is reduced to a byte when it is written, which keeps it
    intro hx
    rw [hcpu, Cpu.reg_flag_setResult _ _ _ hx]
    exact hflag.lowByte
  · intro r hx hr
    rw [hcpu, Cpu.reg_setResult_of_ne _ hx fun _ => hr]
    rfl

/-- A core that is about to execute a word, with values in the registers of its middle digits. -/
def executing (dialect : Dialect) (w : UInt16) (vx vy : Int) : Core :=
  { initial dialect none with
    memory := (initial dialect none).memory.load programStart [w.toNat / 256, w.toNat % 256]
    cpu := (Cpu.initial.setReg (Word.x w) vx).setReg (Word.y w) vy }

theorem isByte_reg_executing (dialect : Dialect) (w : UInt16) {vx vy : Int} (hx : IsByte vx)
    (hy : IsByte vy) (r : Register) : IsByte ((executing dialect w vx vy).cpu.reg r) :=
  ((Cpu.wellFormed_initial.setReg _ hx).setReg _ hy).reg r

/-- The flag register is added to itself, and is shifted into another register. -/
theorem step_computesWithFlag_flagRegister :
    (executing {} 0x8FF4 0x81 0x81).step.core.cpu.reg .flag = 2 ∧
      (executing { shiftUsesVy := true } 0x81FE 5 0x81).step.core.cpu.reg (Word.x 0x81FE) = 2 ∧
      (executing { shiftUsesVy := true } 0x81FE 5 0x81).step.core.cpu.reg .flag = 1 := by
  have hbyte : IsByte 0x81 := ⟨by decide, by decide⟩
  have hfive : IsByte 5 := ⟨by decide, by decide⟩
  obtain ⟨-, hsum, -⟩ := step_computesWithFlag (isByte_reg_executing {} 0x8FF4 hbyte hbyte)
    .flag .flag .sum (by decide +kernel)
  obtain ⟨-, hshift, hflag, -⟩ := step_computesWithFlag
    (isByte_reg_executing { shiftUsesVy := true } 0x81FE hfive hbyte) (Word.x 0x81FE) .flag
    .shiftLeft (by decide +kernel)
  refine ⟨?_, ?_, (hflag (by decide)).1 (by decide +kernel)⟩
  · rw [hsum]
    decide +kernel
  · rw [hshift]
    decide +kernel

end Core

end Chip8
