import Chip8.Proofs.Machine.Frame
import Chip8.Proofs.Machine.Sprites
import Chip8.Proofs.Session.LastProgram

/-!
# Glyphs of digits

A reset puts the glyphs of the sixteen digits into memory, one behind the other, and a program that
wants to draw a digit sets the index to its glyph first. There are two computations of that address.
`Font.glyphAddress` takes the low hexadecimal digit of a number, while the instruction multiplies
the whole register. They agree as long as the register holds a digit; from sixteen on the
instruction leaves the font and the index points at whatever lies behind it.

Where they agree, the index is at the rows of the glyph until somebody writes over the font, and
drawing five rows from there draws the digit.

## Main definitions

* `Font.glyph` — the rows of the glyph of a digit
* `Memory.HasFont` — the font is where a reset puts it

## Main results

* `Core.step_glyph` — the step that sets the index
* `Core.spriteRows_eq_glyph` — the rows at the address of a glyph
* `Machine.WellFormed.glyph_of_digit` — registers that hold a digit, and those that do not
* `Machine.glyph_of_sixteen` — the first number that is no digit
-/

namespace Chip8

/-! ### The font in memory -/

/-- The rows of the glyph of a digit, from the top. -/
def Font.glyph (digit : Nat) : List Int := (rows.drop (5 * digit)).take 5

theorem Font.length_glyph {digit : Nat} (h : digit < 16) : (glyph digit).length = 5 := by
  have hrows : rows.length = 80 := rfl
  rw [glyph, List.length_take, List.length_drop, hrows]
  omega

/-- Rows of glyphs are bytes. -/
theorem Font.toNat_ofInt_row {i : Nat} (h : i < rows.length) :
    ((UInt8.ofInt rows[i]).toNat : Int) = rows[i] := by
  have hbytes : ∀ row ∈ rows, ((UInt8.ofInt row).toNat : Int) = row := by decide
  exact hbytes _ (List.getElem_mem h)

/-- The font is where a reset puts it. -/
def Memory.HasFont (memory : Memory memorySize) : Prop :=
  ∀ (i : Nat) (_ : i < Font.rows.length), memory.read (0x050 + i) = UInt8.ofInt Font.rows[i]

namespace Core

variable {c : Core} {x : Register}

/-- **The rows at the address of a glyph** are those of the glyph. -/
theorem spriteRows_eq_glyph (h : c.memory.HasFont) {digit : Nat} (hdigit : digit < 16)
    (hindex : c.cpu.index = 0x050 + 5 * digit) : c.spriteRows 5 = Font.glyph digit := by
  refine List.ext_getElem ?_ fun i hi hi' => ?_
  · rw [length_spriteRows, Font.length_glyph hdigit]
  · rw [length_spriteRows] at hi
    have hrow : 5 * digit + i < Font.rows.length := by
      have hrows : Font.rows.length = 80 := rfl
      omega
    have haddress : c.cpu.index + i = 0x050 + (5 * digit + i : Nat) := by omega
    simp only [spriteRows, Font.glyph, List.getElem_map, List.getElem_range, List.getElem_take,
      List.getElem_drop]
    rw [Memory.read_emod, haddress, h _ hrow, Font.toNat_ofInt_row hrow]

/-- **The step that sets the index to a glyph** multiplies the whole register. -/
theorem step_glyph (hreg : IsByte (c.cpu.reg x)) (hi : Instruction.ofWord c.fetch = .glyph x) :
    c.step =
      ⟨{ c with
          cpu := { c.cpu.advance with index := 0x050 + 5 * c.cpu.reg x }
          cycles := c.cycles + 1 }, c.fetch, .done⟩ := by
  have haddress : lowWord (c.cpu.reg x * Font.glyphHeight + Font.base) =
      0x050 + 5 * c.cpu.reg x := by
    obtain ⟨h₀, hlt⟩ := hreg
    show (c.cpu.reg x * 5 + 0x050) % 65536 = _
    omega
  rw [step_eq, hi, ← haddress]
  rfl

end Core

/-- The two addresses of a glyph agree on digits and on no other byte. -/
theorem Font.glyphAddress_eq_iff {n : Int} (h : IsByte n) :
    0x050 + 5 * n = glyphAddress n ↔ n < 16 := by
  obtain ⟨h₀, hlt⟩ := h
  show 0x050 + 5 * n = 0x050 + 5 * (n % 16) ↔ n < 16
  omega

namespace Machine

variable {m : Machine}

/-- **The glyph of a register.** A cycle that executes the instruction sets the index to five times
the register behind the base of the font. This is the address of the glyph of its low digit exactly
if the register holds nothing but that digit, and otherwise it lies behind the font.

With a digit in the register and the font in memory, the font stays, the five bytes at the index are
the glyph of the digit, and a cycle that draws five rows draws that glyph: the next one or any later
one that finds the index where it was and the font in memory. -/
theorem WellFormed.glyph_of_digit (h : m.WellFormed) (hexec : m.Executes) {x : Register}
    (hi : Instruction.ofWord m.core.fetch = .glyph x) :
    (m.cycle.1.core.cpu.index = Font.glyphAddress (m.core.cpu.reg x) ↔ m.core.cpu.reg x < 16) ∧
      (16 ≤ m.core.cpu.reg x → 0x050 + Font.rows.length ≤ m.cycle.1.core.cpu.index) ∧
      (m.core.cpu.reg x < 16 → m.core.memory.HasFont →
        m.cycle.1.core.memory.HasFont ∧
        m.cycle.1.core.spriteRows 5 = Font.glyph (m.core.cpu.reg x % 16).toNat ∧
        ∀ later : Machine, later.WellFormed → later.Executes → later.core.memory.HasFont →
          later.core.cpu.index = m.cycle.1.core.cpu.index →
          ∀ a b n, Instruction.ofWord later.core.fetch = .draw a b n → n.val = 5 →
            ∃ collision, later.core.framebuffer.DrawsSprite (later.core.cpu.reg a)
                (later.core.cpu.reg b) (Font.glyph (m.core.cpu.reg x % 16).toNat)
                later.cycle.1.core.framebuffer collision ∧
              later.cycle.1.core.cpu.reg .flag = flagOf collision) := by
  have hbyte := h.core.cpu.reg x
  have hcore := hexec.2
  rw [Core.step_glyph hbyte hi] at hcore
  have hindex : m.cycle.1.core.cpu.index = 0x050 + 5 * m.core.cpu.reg x := by rw [hcore]
  have hmemory : m.cycle.1.core.memory = m.core.memory := by rw [hcore]
  refine ⟨?_, ?_, ?_⟩
  · rw [hindex]
    exact Font.glyphAddress_eq_iff hbyte
  · intro hbig
    have hrows : Font.rows.length = 80 := rfl
    omega
  · intro hdigit hfont
    obtain ⟨h₀, -⟩ := hbyte
    have hlt : (m.core.cpu.reg x % 16).toNat < 16 := by omega
    have haddress : m.cycle.1.core.cpu.index = 0x050 + 5 * (m.core.cpu.reg x % 16).toNat := by omega
    have hfont' : m.cycle.1.core.memory.HasFont := hmemory ▸ hfont
    refine ⟨hfont', Core.spriteRows_eq_glyph hfont' hlt haddress, ?_⟩
    -- the sprite at the index is read from the font of the later machine
    intro later hlater hlaterExec hlaterFont hsame a b n hdraw hn
    have hrows := Core.spriteRows_eq_glyph hlaterFont hlt (hsame.trans haddress)
    rw [hlaterExec.2, ← hrows, ← hn]
    exact hlater.core.step_drawsSprite hdraw

/-- A machine with a number in a register, which is about to set the index to its glyph and to draw
it. -/
def drawingDigit (number : Int) : Machine :=
  (create {} (some 0)).run [.loadRom [0x60, number, 0xF0, 0x29, 0xD0, 0x05], .cycle]

theorem glyph_of_digit_ten :
    (drawingDigit 10).WellFormed ∧ (drawingDigit 10).Executes ∧
      (drawingDigit 10).cycle.1.core.cpu.index = Font.glyphAddress 10 ∧
      (drawingDigit 10).cycle.1.core.spriteRows 5 = [0xF0, 0x90, 0xF0, 0x90, 0x90] ∧
      ∃ a b collision, (drawingDigit 10).cycle.1.core.framebuffer.DrawsSprite
        ((drawingDigit 10).cycle.1.core.cpu.reg a) ((drawingDigit 10).cycle.1.core.cpu.reg b)
        [0xF0, 0x90, 0xF0, 0x90, 0x90]
        (drawingDigit 10).cycle.1.cycle.1.core.framebuffer collision := by
  have hwell : (drawingDigit 10).WellFormed := ((Reachable.create {} (some 0)).run _).wellFormed
  have hready : (drawingDigit 10).control.running = true ∧
      (drawingDigit 10).core.cpu.pc ∉ (drawingDigit 10).control.breakpoints ∧
      Instruction.ofWord (drawingDigit 10).core.fetch = .glyph (Word.x 0xF029) ∧
      (drawingDigit 10).core.cpu.reg (Word.x 0xF029) = 10 ∧
      (drawingDigit 10).core.memory.HasFont := by
    unfold Memory.HasFont
    decide +kernel
  obtain ⟨hrun, hpc, hi, hten, hfont⟩ := hready
  have hexec := hwell.executes_of_not_mem hrun hpc
  obtain ⟨haddress, -, hdraws⟩ := hwell.glyph_of_digit hexec hi
  rw [hten] at haddress hdraws
  obtain ⟨hfont', hrows, hlater⟩ := hdraws (by decide) hfont
  have hready' : (drawingDigit 10).cycle.1.control.running = true ∧
      (drawingDigit 10).cycle.1.core.cpu.pc ∉
        (drawingDigit 10).cycle.1.control.breakpoints ∧
      Instruction.ofWord (drawingDigit 10).cycle.1.core.fetch =
        .draw (Word.x 0xD005) (Word.y 0xD005) (Word.n 0xD005) := by decide +kernel
  obtain ⟨hrun', hpc', hdraw⟩ := hready'
  have hexec' := hwell.cycle.executes_of_not_mem hrun' hpc'
  obtain ⟨collision, hsprite, -⟩ :=
    hlater _ hwell.cycle hexec' hfont' rfl _ _ _ hdraw (by decide)
  exact ⟨hwell, hexec, haddress.2 (by decide), hrows, _, _, collision, hsprite⟩

/-- **The first number that is no digit.** With sixteen in the register the index is set behind the
font, and not to the glyph of the low digit, which is zero. -/
theorem glyph_of_sixteen :
    (drawingDigit 16).WellFormed ∧ (drawingDigit 16).Executes ∧
      Instruction.ofWord (drawingDigit 16).core.fetch = .glyph (Word.x 0xF029) ∧
      (drawingDigit 16).core.cpu.reg (Word.x 0xF029) = 16 ∧
      (drawingDigit 16).cycle.1.core.cpu.index ≠ Font.glyphAddress 16 ∧
      (drawingDigit 16).core.memory.HasFont ∧
      (drawingDigit 16).cycle.1.core.spriteRows 5 ≠ Font.glyph 0 := by
  have hwell : (drawingDigit 16).WellFormed := ((Reachable.create {} (some 0)).run _).wellFormed
  have hready : (drawingDigit 16).control.running = true ∧
      (drawingDigit 16).core.cpu.pc ∉ (drawingDigit 16).control.breakpoints ∧
      Instruction.ofWord (drawingDigit 16).core.fetch = .glyph (Word.x 0xF029) ∧
      (drawingDigit 16).core.cpu.reg (Word.x 0xF029) = 16 ∧
      (drawingDigit 16).cycle.1.core.cpu.index ≠ Font.glyphAddress 16 ∧
      (drawingDigit 16).core.memory.HasFont ∧
      (drawingDigit 16).cycle.1.core.spriteRows 5 ≠ Font.glyph 0 := by
    unfold Memory.HasFont
    decide +kernel
  exact ⟨hwell, hwell.executes_of_not_mem hready.1 hready.2.1, hready.2.2⟩

end Machine

end Chip8
