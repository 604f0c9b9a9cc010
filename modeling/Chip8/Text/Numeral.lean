/-!
# Numerals

Whole numbers written in a base from two to sixteen. `Numeral.digits` is the list of digit values,
most significant first, and `Numeral.ofDigits` reads such a list back; the printers below only
choose the characters.

## Main definitions

* `Numeral.digits`, `Numeral.ofDigits` — digit values of a number, and the number of a digit list
* `Numeral.decimal`, `Numeral.decimalInt` — the decimal text of a number
* `Numeral.hex`, `Numeral.hexInt` — upper-case hexadecimal text of at least a given width
-/

namespace Chip8

namespace Numeral

/-! ### Digit values -/

/-- The digits of a number in base `b`, most significant first, using at most `fuel` divisions. -/
def digitsUpTo (b : Nat) : Nat → Nat → List Nat
  | 0, n => [n]
  | fuel + 1, n => if n < b then [n] else digitsUpTo b fuel (n / b) ++ [n % b]

/-- The digits of `n` in base `b`, most significant first; zero has the single digit `0`. A number
has fewer divisions by its base than its own value, so the bound is never met. -/
def digits (b n : Nat) : List Nat := digitsUpTo b n n

/-- The number that a list of digit values denotes in base `b`. -/
def ofDigits (b : Nat) (ds : List Nat) : Nat := ds.foldl (fun value d => value * b + d) 0

/-! ### Characters -/

/-- The character of a digit value below sixteen, letters in upper case. -/
def upperDigit (d : Nat) : Char := if d < 10 then Char.ofNat (48 + d) else Char.ofNat (55 + d)

/-- The character of a digit value below sixteen, letters in lower case. -/
def lowerDigit (d : Nat) : Char := if d < 10 then Char.ofNat (48 + d) else Char.ofNat (87 + d)

/-- The value of an ASCII digit or of a letter of either case, `a` standing for ten. -/
def digitValue? (c : Char) : Option Nat :=
  if '0' ≤ c ∧ c ≤ '9' then some (c.toNat - 48)
  else if 'a' ≤ c ∧ c ≤ 'z' then some (c.toNat - 87)
  else if 'A' ≤ c ∧ c ≤ 'Z' then some (c.toNat - 55)
  else none

/-! ### Texts -/

/-- Characters preceded by as many zeros as bring them to the given width. -/
def zeroPadded (width : Nat) (cs : List Char) : List Char :=
  List.replicate (width - cs.length) '0' ++ cs

/-- The decimal text of a number. -/
def decimal (n : Nat) : String := String.ofList ((digits 10 n).map upperDigit)

/-- The decimal text of an integer, a minus sign in front of a negative one. -/
def decimalInt (n : Int) : String :=
  if n < 0 then "-" ++ decimal n.natAbs else decimal n.natAbs

/-- The decimal text of a number, zero-padded to the given width. -/
def decimalPadded (width n : Nat) : String :=
  String.ofList (zeroPadded width ((digits 10 n).map upperDigit))

/-- Upper-case hexadecimal text, zero-padded to the given width. -/
def hex (width n : Nat) : String :=
  String.ofList (zeroPadded width ((digits 16 n).map upperDigit))

/-- Upper-case hexadecimal text of an integer. A minus sign counts towards the width. -/
def hexInt (width : Nat) (n : Int) : String :=
  if n < 0 then "-" ++ hex (width - 1) n.natAbs else hex width n.natAbs

/-- Lower-case hexadecimal text, zero-padded to the given width. -/
def lowerHex (width n : Nat) : String :=
  String.ofList (zeroPadded width ((digits 16 n).map lowerDigit))

end Numeral

end Chip8
