import Chip8.Text.CharClass
import Chip8.Text.Numeral

/-!
# Quoted text

The quoted form in which messages show a text or a byte string. The quotes are apostrophes, or
double quotes when the content has an apostrophe and no double quote. A backslash and the chosen
quote are written with a backslash in front, tab, line feed and carriage return by their letters,
and every character that does not stand for itself by its code in hexadecimal.

## Main definitions

* `Quoted.quote` — the quoted form, given which characters stand for themselves
* `Quoted.text` — a text, where printable characters stand for themselves
* `Quoted.bytes` — a byte string, where printable ASCII characters stand for themselves
-/

namespace Chip8

namespace Quoted

/-- The quote that goes around a content. -/
def quoteMark (content : List Char) : Char :=
  if content.contains '\x27' && !content.contains '\x22' then '\x22' else '\x27'

/-- A character by its code: two, four or eight hexadecimal digits, whichever is enough. -/
def numericEscape (c : Char) : List Char :=
  if c.toNat < 0x100 then ("\\x" ++ Numeral.lowerHex 2 c.toNat).toList
  else if c.toNat < 0x10000 then ("\\u" ++ Numeral.lowerHex 4 c.toNat).toList
  else ("\\U" ++ Numeral.lowerHex 8 c.toNat).toList

/-- One character of the content between quotes `mark`. -/
def escape (plain : Char → Bool) (mark c : Char) : List Char :=
  if c = mark ∨ c = '\\' then ['\\', c]
  else if c = '\t' then ['\\', 't']
  else if c = '\n' then ['\\', 'n']
  else if c = '\r' then ['\\', 'r']
  else if plain c then [c]
  else numericEscape c

/-- The quoted form of a content, where the characters that `plain` accepts stand for themselves. -/
def quote (plain : Char → Bool) (content : List Char) : List Char :=
  let mark := quoteMark content
  mark :: content.flatMap (escape plain mark) ++ [mark]

/-- The quoted form of a text. -/
def text (cs : List Char) : List Char := quote CharClass.isPrintable cs

/-- The quoted form of a byte string, marked by a leading letter. -/
def bytes (data : List UInt8) : String :=
  String.ofList ('b' :: quote (fun c => 0x20 ≤ c.toNat && c.toNat < 0x7F)
    (data.map fun byte => Char.ofNat byte.toNat))

end Quoted

end Chip8
