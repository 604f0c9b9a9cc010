import Chip8.Text.CharTable

/-!
# Character classes

The three character classes that reading numerals and writing quoted text depend on. All of them
cover the whole of Unicode; the tables hold the part beyond ASCII.

## Main definitions

* `CharClass.isBlank` — white space around a numeral
* `CharClass.decimalValue?` — the value of a decimal digit of any script
* `CharClass.isPrintable` — characters that stand for themselves in quoted text
-/

namespace Chip8

namespace CharClass

/-- White space: the blank, the five ASCII characters from tab to carriage return, and the white
space characters beyond ASCII. -/
def isBlank (c : Char) : Bool :=
  c = ' ' || (9 ≤ c.toNat && c.toNat ≤ 13) || CharTable.inRanges CharTable.blank c.toNat

/-- The value of a decimal digit of any script. -/
def decimalValue? (c : Char) : Option Nat :=
  if '0' ≤ c ∧ c ≤ '9' then some (c.toNat - 48)
  else (CharTable.decimalZero.find? fun first => first ≤ c.toNat && c.toNat < first + 10).map
    fun first => c.toNat - first

/-- Whether a character is written as itself: the ASCII characters from the blank to the tilde, and
all others that `CharTable.unprintable` does not list. -/
def isPrintable (c : Char) : Bool :=
  if c.toNat < 0x80 then 0x20 ≤ c.toNat && c.toNat < 0x7F
  else !CharTable.inRanges CharTable.unprintable c.toNat

end CharClass

end Chip8
