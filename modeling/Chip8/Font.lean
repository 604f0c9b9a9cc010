/-!
# Font

The glyphs of the sixteen hexadecimal digits, four by five pixels each, and the place where a reset
puts them.
-/

namespace Chip8

namespace Font

/-- The address of the glyph of zero. -/
abbrev base : Nat := 0x050

/-- The number of rows of a glyph. -/
abbrev glyphHeight : Nat := 5

/-- The glyphs in the order of their digits, one byte for each row. -/
def rows : List Int :=
  [0xF0, 0x90, 0x90, 0x90, 0xF0,
   0x20, 0x60, 0x20, 0x20, 0x70,
   0xF0, 0x10, 0xF0, 0x80, 0xF0,
   0xF0, 0x10, 0xF0, 0x10, 0xF0,
   0x90, 0x90, 0xF0, 0x10, 0x10,
   0xF0, 0x80, 0xF0, 0x10, 0xF0,
   0xF0, 0x80, 0xF0, 0x90, 0xF0,
   0xF0, 0x10, 0x20, 0x40, 0x40,
   0xF0, 0x90, 0xF0, 0x90, 0xF0,
   0xF0, 0x90, 0xF0, 0x10, 0xF0,
   0xF0, 0x90, 0xF0, 0x90, 0x90,
   0xE0, 0x90, 0xE0, 0x90, 0xE0,
   0xF0, 0x80, 0x80, 0x80, 0xF0,
   0xE0, 0x90, 0x90, 0x90, 0xE0,
   0xF0, 0x80, 0xF0, 0x80, 0xF0,
   0xF0, 0x80, 0xF0, 0x80, 0x80]

/-- The address of the glyph of a number's low hexadecimal digit. -/
def glyphAddress (digit : Int) : Int := base + glyphHeight * (digit % 16)

end Font

end Chip8
