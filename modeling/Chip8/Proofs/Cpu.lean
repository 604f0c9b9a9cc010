import Chip8.Cpu
import Mathlib.Data.Nat.Bitwise

/-!
# Registers of a machine

A machine that no host has written registers into keeps all of them within their widths. This
module says so for the registers and the stack, and shows it for every function that instructions
use on them. In such a state the index of a call or a return always denotes a slot, so `Cpu.push`
and `Cpu.pop` come down to the two faults that are recorded.

## Main definitions

* `IsByte`, `IsWord` — the integers of eight and of sixteen bits
* `Cpu.WellFormed` — every register is within its width, and the stack pointer within the stack

## Main results

* `Cpu.reg_setResult_self`, `Cpu.reg_flag_setResult`, `Cpu.reg_setResult_of_ne` — the registers
  after an operation
* `Cpu.push_of_slot`, `Cpu.push_of_full`, `Cpu.pop_of_slot`, `Cpu.pop_of_empty` — calls and returns
* `ArithmeticOp.isByte_eval` — operations on bytes give bytes
-/

namespace Chip8

/-! ### Widths -/

/-- The integers of eight bits. -/
def IsByte (n : Int) : Prop := 0 ≤ n ∧ n < 256

/-- The integers of sixteen bits. -/
def IsWord (n : Int) : Prop := 0 ≤ n ∧ n < 65536

theorem isByte_lowByte (n : Int) : IsByte (lowByte n) := by
  unfold IsByte lowByte
  omega

theorem isWord_lowWord (n : Int) : IsWord (lowWord n) := by
  unfold IsWord lowWord
  omega

theorem isByte_toNat (b : UInt8) : IsByte b.toNat := by
  have := b.toNat_lt
  exact ⟨by omega, by omega⟩

theorem isWord_toNat (w : UInt16) : IsWord w.toNat := by
  have := w.toNat_lt
  exact ⟨by omega, by omega⟩

/-- An integer of eight bits as a natural number, which bitwise operations are about. -/
theorem IsByte.exists_nat {n : Int} (h : IsByte n) : ∃ k : Nat, k < 2 ^ 8 ∧ n = k := by
  obtain ⟨h₀, h₁⟩ := h
  exact ⟨n.toNat, by omega, by omega⟩

theorem isByte_natCast {k : Nat} (h : k < 2 ^ 8) : IsByte k := ⟨by omega, by omega⟩

/-! ### Operations on two registers -/

/-- Operations on bytes give bytes. -/
theorem ArithmeticOp.isByte_eval (op : ArithmeticOp) (shiftUsesVy : Bool) {vx vy : Int}
    (hx : IsByte vx) (hy : IsByte vy) : IsByte (op.eval shiftUsesVy vx vy).1 := by
  have hsource : IsByte (if shiftUsesVy then vy else vx) := by split <;> assumption
  obtain ⟨m, hm, rfl⟩ := hx.exists_nat
  obtain ⟨n, hn, rfl⟩ := hy.exists_nat
  cases op with
  | copy => exact hy
  | or =>
    show IsByte (Bits.or m n)
    rw [Bits.or_natCast]
    exact isByte_natCast (Nat.or_lt_two_pow hm hn)
  | and =>
    show IsByte (Bits.and m n)
    rw [Bits.and_natCast]
    exact isByte_natCast (Nat.and_lt_two_pow m hn)
  | xor =>
    show IsByte (Bits.xor m n)
    rw [Bits.xor_natCast]
    exact isByte_natCast (Nat.xor_lt_two_pow hm hn)
  | add => exact isByte_lowByte _
  | sub => exact isByte_lowByte _
  | shiftRight =>
    obtain ⟨h₀, h₁⟩ := hsource
    exact ⟨by simp only [eval]; omega, by simp only [eval]; omega⟩
  | subReverse => exact isByte_lowByte _
  | shiftLeft => exact isByte_lowByte _

namespace Cpu

variable {c : Cpu}

/-- Every register is within its width, and the stack pointer within the stack. -/
structure WellFormed (c : Cpu) : Prop where
  pc : IsWord c.pc
  index : IsWord c.index
  reg : ∀ x, IsByte (c.reg x)
  stack : ∀ a ∈ c.stack, IsWord a
  sp : 0 ≤ c.sp ∧ c.sp ≤ stackDepth

theorem wellFormed_initial : WellFormed initial where
  pc := ⟨by decide, by decide⟩
  index := ⟨by decide, by decide⟩
  reg x := by simp [reg, initial, IsByte]
  stack a ha := by
    rw [(Vector.mem_replicate.1 ha).2]
    exact ⟨by decide, by decide⟩
  sp := ⟨by decide, by decide⟩

/-! ### Single registers -/

theorem reg_setReg (c : Cpu) (x y : Register) (value : Int) :
    (c.setReg x value).reg y = if x = y then value else c.reg y := by
  simp only [reg, setReg, Fin.getElem_fin, Vector.getElem_set, Fin.ext_iff]

/-- The result of an operation is in its register, whichever that is. -/
theorem reg_setResult_self (c : Cpu) (x : Register) (result : Int × Option Int) :
    (c.setResult x result).reg x = result.1 := by
  obtain ⟨value, flag⟩ := result
  cases flag with
  | none => exact (reg_setReg _ _ _ _).trans (if_pos rfl)
  | some flag => exact (reg_setReg _ _ _ _).trans (if_pos rfl)

/-- The flag is in its register, unless the result took that. -/
theorem reg_flag_setResult (c : Cpu) {x : Register} (value flag : Int) (hx : x ≠ .flag) :
    (c.setResult x (value, some flag)).reg .flag = lowByte flag := by
  show ((c.setFlag flag).setReg x value).reg .flag = _
  rw [reg_setReg, if_neg hx, setFlag, reg_setReg, if_pos rfl]

/-- The other registers are as before; without a flag its register is one of them. -/
theorem reg_setResult_of_ne (c : Cpu) {x r : Register} {result : Int × Option Int} (hx : r ≠ x)
    (hflag : result.2.isSome = true → r ≠ .flag) : (c.setResult x result).reg r = c.reg r := by
  obtain ⟨value, flag⟩ := result
  cases flag with
  | none => exact (reg_setReg _ _ _ _).trans (if_neg hx.symm)
  | some flag =>
    show ((c.setFlag flag).setReg x value).reg r = _
    rw [reg_setReg, if_neg hx.symm, setFlag, reg_setReg, if_neg (hflag rfl).symm]

theorem WellFormed.setReg (h : c.WellFormed) (x : Register) {value : Int} (hv : IsByte value) :
    (c.setReg x value).WellFormed :=
  { h with
    reg := fun y => by
      rw [reg_setReg]
      split
      · exact hv
      · exact h.reg y }

theorem WellFormed.setFlag (h : c.WellFormed) (value : Int) : (c.setFlag value).WellFormed :=
  h.setReg .flag (isByte_lowByte value)

theorem WellFormed.setResult (h : c.WellFormed) (x : Register) {result : Int × Option Int}
    (hv : IsByte result.1) : (c.setResult x result).WellFormed := by
  obtain ⟨value, flag⟩ := result
  cases flag with
  | none => exact h.setReg x hv
  | some flag => exact (h.setFlag flag).setReg x hv

theorem WellFormed.setPc (h : c.WellFormed) {pc : Int} (hpc : IsWord pc) :
    WellFormed { c with pc } := { h with pc := hpc }

theorem WellFormed.setIndex (h : c.WellFormed) {index : Int} (hi : IsWord index) :
    WellFormed { c with index } := { h with index := hi }

theorem WellFormed.advance (h : c.WellFormed) : c.advance.WellFormed :=
  h.setPc (isWord_lowWord _)

theorem WellFormed.rewind (h : c.WellFormed) : c.rewind.WellFormed :=
  h.setPc (isWord_lowWord _)

/-- Going back undoes going on, also across the end of the address range. -/
theorem WellFormed.rewind_advance (h : c.WellFormed) : c.advance.rewind = c := by
  obtain ⟨h₀, h₁⟩ := h.pc
  have hpc : lowWord (lowWord (c.pc + 2) - 2) = c.pc := by
    unfold lowWord
    omega
  simp only [Cpu.advance, Cpu.rewind, hpc]

/-! ### Calls and returns -/

/-- A stack pointer below the depth denotes a slot. -/
theorem exists_slot {n : Int} (h₀ : 0 ≤ n) (h : n < stackDepth) :
    ∃ slot : Fin stackDepth, n = slot.val :=
  ⟨⟨n.toNat, by omega⟩, by show n = n.toNat; omega⟩

theorem push_of_full (target : Int) (h : c.sp = stackDepth) : c.push target = .error .full := by
  rw [push, if_pos (by omega)]

theorem push_of_slot (target : Int) {slot : Fin stackDepth} (hslot : c.sp = slot.val) :
    c.push target =
      .ok { c with
        stack := c.stack.set slot.val c.pc slot.isLt, sp := c.sp + 1, pc := target } := by
  have hlt := slot.isLt
  rw [push, if_neg (by omega), hslot, position?_natCast slot.isLt]

theorem pop_of_empty (h : c.sp = 0) : c.pop = .error .empty := by rw [pop, if_pos h]

theorem pop_of_slot {slot : Fin stackDepth} (hslot : c.sp - 1 = slot.val) :
    c.pop = .ok { c with sp := c.sp - 1, pc := c.stack.get slot } := by
  rw [pop, if_neg (by omega), hslot, position?_natCast slot.isLt]
  rfl

theorem WellFormed.push (h : c.WellFormed) {target : Int} (ht : IsWord target) {next : Cpu}
    (hn : c.push target = .ok next) : next.WellFormed := by
  obtain ⟨h₀, hle⟩ := h.sp
  rcases Int.lt_or_eq_of_le hle with hlt | hfull
  · obtain ⟨slot, hslot⟩ := exists_slot h₀ hlt
    rw [push_of_slot target hslot] at hn
    cases hn
    have hsp : 0 ≤ c.sp + 1 ∧ c.sp + 1 ≤ stackDepth := by omega
    refine { h with pc := ht, stack := fun a ha => ?_, sp := hsp }
    have hset : a ∈ c.stack.set slot.val c.pc slot.isLt := ha
    rcases Vector.mem_or_eq_of_mem_set hset with ha | rfl
    · exact h.stack a ha
    · exact h.pc
  · rw [push_of_full target hfull] at hn
    cases hn

theorem WellFormed.pop (h : c.WellFormed) {next : Cpu} (hn : c.pop = .ok next) :
    next.WellFormed := by
  obtain ⟨h₀, hle⟩ := h.sp
  rcases Int.lt_or_eq_of_le h₀ with hpos | hempty
  · obtain ⟨slot, hslot⟩ := exists_slot (n := c.sp - 1) (by omega) (by omega)
    rw [pop_of_slot hslot] at hn
    cases hn
    have hsp : 0 ≤ c.sp - 1 ∧ c.sp - 1 ≤ stackDepth := by omega
    exact { h with pc := h.stack _ (Vector.getElem_mem slot.isLt), sp := hsp }
  · rw [pop_of_empty hempty.symm] at hn
    cases hn

end Cpu

end Chip8
