import Chip8.Core
import Chip8.Proofs.Memory

/-!
# Resets of a core

A core is reset part by part. Each part is brought back to what a new one is, whatever it held, and
the memory gets the font behind that. The dialect is the only thing that no part resets. So two
cores of one dialect cannot be told apart once they were reset with the same seed, and one of them
may be a new core.

## Main definitions

* `Core.initialMemory` — the memory after a reset

## Main results

* `Core.reset_eq` — what a reset leaves
* `Core.reset_congr` — resets of two cores of one dialect
* `Core.read_initialMemory_font`, `Core.read_initialMemory_of_outside` — the memory after a reset
-/

namespace Chip8

/-! ### Parts -/

theorem Memory.clear_eq_blank {size : Nat} (m : Memory size) : m.clear = blank size := rfl

theorem Cpu.reset_eq_initial (c : Cpu) : c.reset = initial := rfl

theorem Framebuffer.reset_eq_blank (f : Framebuffer) : f.reset = blank := rfl

theorem Keypad.reset_eq_blank (k : Keypad) : k.reset = blank := rfl

theorem Timers.reset_eq_zero (t : Timers) : t.reset = zero := rfl

namespace Core

/-! ### All parts -/

/-- The memory after a reset: the font, and zeros. -/
def initialMemory : Memory memorySize := (Memory.blank memorySize).load Font.base Font.rows

/-- **What a reset leaves**: every part as it is when it is new, the font in memory, and the random
numbers of the seed. -/
theorem reset_eq (c : Core) (seed : Int) :
    c.reset seed =
      { dialect := c.dialect
        cpu := .initial
        memory := initialMemory
        framebuffer := .blank
        keypad := .blank
        timers := .zero
        random := .ofSeed seed
        diagnostics := []
        cycles := 0 } := by
  rw [reset, Memory.clear_eq_blank, Cpu.reset_eq_initial, Framebuffer.reset_eq_blank,
    Keypad.reset_eq_blank, Timers.reset_eq_zero, initialMemory]

/-- **Resets make cores of one dialect the same.** -/
theorem reset_congr {c d : Core} (h : c.dialect = d.dialect) (seed : Int) :
    c.reset seed = d.reset seed := by
  rw [reset_eq, reset_eq, h]

/-! ### Memory -/

/-- A reset puts the font into the memory. -/
theorem read_initialMemory_font {i : Nat} (h : i < Font.rows.length) :
    initialMemory.read (0x050 + i) = UInt8.ofInt Font.rows[i] :=
  Memory.read_load_get (by decide) h

/-- The rest of the memory is zero. -/
theorem read_initialMemory_of_outside {a : Int} (ha : 0 ≤ a ∧ a < memorySize)
    (hout : a < 0x050 ∨ 0x050 + Font.rows.length ≤ a) : initialMemory.read a = 0 := by
  have hmemory : initialMemory = (Memory.blank memorySize).load 0x050 Font.rows := rfl
  rw [hmemory, Memory.read_load_of_outside (by decide) (by decide) ha hout, Memory.read_blank]

end Core

end Chip8
