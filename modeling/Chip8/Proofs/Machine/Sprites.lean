import Chip8.Proofs.Framebuffer
import Chip8.Proofs.Machine.Breakpoints
import Chip8.Proofs.Memory

/-!
# Sprites of a program

A program draws a sprite of up to fifteen rows, which it keeps in memory from the index on. The rows
are read round the end of the memory, and the place of the sprite is read from two registers before
the flag is written, so one of them may be the flag register itself.

## Main definitions

* `Core.spriteRows` — the rows of the sprite at the index

## Main results

* `Core.step_draw` — the step that draws
* `Core.WellFormed.step_drawsSprite` — it draws the sprite and sets the flag
* `Machine.draws_sprites_exactly` — sprites of at most 32 rows, and those of programs
-/

namespace Chip8

namespace Core

variable {c : Core} {x y : Register} {n : Fin 16}

/-- The rows of the sprite of the given height at the index. -/
def spriteRows (c : Core) (n : Nat) : List Int :=
  (List.range n).map fun r : Nat => ((c.memory.read ((c.cpu.index + r) % memorySize)).toNat : Int)

theorem length_spriteRows (c : Core) (n : Nat) : (c.spriteRows n).length = n := by
  rw [spriteRows, List.length_map, List.length_range]

/-- They are the bytes of a run of memory, which goes round its end. -/
theorem map_dump_eq_spriteRows (c : Core) (n : Nat) :
    ((c.memory.dump c.cpu.index n).map fun b => (b.toNat : Int)) = c.spriteRows n := by
  rw [Memory.dump, spriteRows, List.map_map, Int.toNat_natCast]
  refine List.map_congr_left fun r _ => ?_
  rw [Memory.read_emod]
  rfl

/-- **The step that draws.** The place is that of the registers before the step. -/
theorem step_draw (hi : Instruction.ofWord c.fetch = .draw x y n) :
    c.step.core =
      let drawn := c.framebuffer.draw (c.cpu.reg x) (c.cpu.reg y) (c.spriteRows n)
      { c with
        framebuffer := drawn.1
        cpu := c.cpu.advance.setFlag (flagOf drawn.2)
        cycles := c.cycles + 1 } := by
  rw [step_core, hi, ← map_dump_eq_spriteRows]
  rfl

theorem lowByte_flagOf (b : Bool) : lowByte (flagOf b) = flagOf b := by
  cases b with
  | true => rfl
  | false => rfl

/-- A step that draws leaves the sprite on the screen, and in the flag register whether it switched
a pixel off. -/
theorem WellFormed.step_drawsSprite (h : c.WellFormed)
    (hi : Instruction.ofWord c.fetch = .draw x y n) :
    ∃ collision, Framebuffer.DrawsSprite c.framebuffer (c.cpu.reg x) (c.cpu.reg y)
        (c.spriteRows n) c.step.core.framebuffer collision ∧
      c.step.core.cpu.reg .flag = flagOf collision := by
  have hrows : (c.spriteRows n).length ≤ 32 := by
    rw [length_spriteRows]
    omega
  rw [step_draw hi]
  refine ⟨_, h.framebuffer.drawsSprite _ _ hrows, ?_⟩
  show (Cpu.setReg _ _ _).reg .flag = _
  rw [Cpu.reg_setReg, if_pos rfl, lowByte_flagOf]

end Core

namespace Machine

/-- **Sprites are drawn exactly.** On a screen of zeros and ones a sprite of at most 32 rows,
wherever it stands, switches the pixels that its set bits fall on and no others, and tells whether
it switched one off. So does the sprite of a program: a cycle that executes its instruction draws
the bytes from the index on at the place that two registers held before, and puts the answer into
the flag register. -/
theorem draws_sprites_exactly :
    (∀ f : Framebuffer, f.Binary → ∀ (x y : Int) (rows : List Int), rows.length ≤ 32 →
      f.DrawsSprite x y rows (f.draw x y rows).1 (f.draw x y rows).2) ∧
      ∀ m : Machine, m.WellFormed → m.Executes → ∀ (x y : Register) (n : Fin 16),
        Instruction.ofWord m.core.fetch = .draw x y n →
        ∃ collision, m.core.framebuffer.DrawsSprite (m.core.cpu.reg x) (m.core.cpu.reg y)
            (m.core.spriteRows n) m.cycle.1.core.framebuffer collision ∧
          m.cycle.1.core.cpu.reg .flag = flagOf collision := by
  refine ⟨fun f hf x y rows hrows => hf.drawsSprite x y hrows, ?_⟩
  intro m hm hexec x y n hi
  rw [hexec.2]
  exact hm.core.step_drawsSprite hi

/-- A machine that has drawn a sprite round the corner of the screen, and is about to draw it there
again with the flag register for a coordinate. -/
def redrawing : Machine :=
  (create {} (some 0)).run
    [.loadRom [0x60, 0x3E, 0x61, 0x1F, 0xA2, 0x00, 0xD0, 0x12, 0x6F, 0x3E, 0xDF, 0x12],
      .cycle, .cycle, .cycle, .cycle, .cycle]

theorem draws_sprites_exactly_redrawing :
    Framebuffer.dotted.Binary ∧
      Framebuffer.dotted.DrawsSprite (-2) 33 [0xC0, 0x03]
        (Framebuffer.dotted.draw (-2) 33 [0xC0, 0x03]).1
        (Framebuffer.dotted.draw (-2) 33 [0xC0, 0x03]).2 ∧
      redrawing.WellFormed ∧ redrawing.Executes ∧ redrawing.core.cpu.reg .flag = 62 ∧
      ∃ y n collision, Instruction.ofWord redrawing.core.fetch = .draw .flag y n ∧
        redrawing.core.framebuffer.DrawsSprite 62 (redrawing.core.cpu.reg y)
          (redrawing.core.spriteRows n) redrawing.cycle.1.core.framebuffer collision ∧
        redrawing.cycle.1.core.cpu.reg .flag = flagOf collision ∧ collision = true := by
  obtain ⟨hdraw, hcycle⟩ := draws_sprites_exactly
  have hwell : redrawing.WellFormed := ((Reachable.create {} (some 0)).run _).wellFormed
  have hready : redrawing.control.running = true ∧
      redrawing.core.cpu.pc ∉ redrawing.control.breakpoints ∧
      redrawing.core.cpu.reg .flag = 62 ∧
      Instruction.ofWord redrawing.core.fetch =
        .draw .flag (Word.y 0xDF12) (Word.n 0xDF12) := by decide +kernel
  obtain ⟨hrun, hpc, hflag, hi⟩ := hready
  have hexec : redrawing.Executes := hwell.executes_of_not_mem hrun hpc
  obtain ⟨collision, hdraws, hset⟩ := hcycle redrawing hwell hexec _ _ _ hi
  have hcollides : redrawing.cycle.1.core.cpu.reg .flag = 1 := by decide +kernel
  have hcollision : collision = true := by
    rw [hcollides] at hset
    cases collision with
    | true => rfl
    | false => cases hset
  rw [hflag] at hdraws
  exact ⟨Framebuffer.binary_dotted, hdraw _ Framebuffer.binary_dotted _ _ _ (by decide), hwell,
    hexec, hflag, _, _, collision, hi, hdraws, hset, hcollision⟩

end Machine

end Chip8
