import Chip8.Text.CharClass
import Chip8.Text.Numeral

/-!
# Integer literals

Reading an integer from a text. White space around the numeral is dropped, one sign may precede it,
digits may be decimal digits of any script, and single underscores may stand between digits. In
base sixteen a leading `0x` is skipped, together with one underscore after it. A numeral in a base
that is not a power of two has at most `IntLiteral.maxDigits` digits.

## Main definitions

* `IntLiteral.Error` — why a text is refused
* `IntLiteral.read` — the integer of a text in a given base
-/

namespace Chip8

namespace IntLiteral

/-- The reasons for which a text is refused. -/
inductive Error where
  /-- The text is no numeral of the base. -/
  | malformed
  /-- The numeral has this number of digits, more than `maxDigits`. -/
  | tooLong (count : Nat)
  deriving DecidableEq, Repr

/-- The greatest number of digits of a numeral whose base is not a power of two. -/
def maxDigits : Nat := 4300

/-- The value of a character as a digit of the base: a decimal digit of any script, or an ASCII
letter. -/
def digitValue? (base : Nat) (c : Char) : Option Nat :=
  ((CharClass.decimalValue? c).or (Numeral.digitValue? c)).filter (· < base)

/-- Whether a character may belong to the body of a numeral. -/
def isBodyChar (base : Nat) (c : Char) : Bool := c = '_' || (digitValue? base c).isSome

/-- Whether underscores stand only singly between digits. -/
def wellSpaced : List Char → Bool
  | [] => false
  | [c] => c ≠ '_'
  | c :: d :: rest => !(c = '_' && d = '_') && wellSpaced (d :: rest)

/-- Bases whose numerals may have any length. -/
def isUnlimited (base : Nat) : Bool := base = 2 || base = 4 || base = 8 || base = 16 || base = 32

/-- The body of a numeral, after sign and base mark, up to the end of the text. -/
def readBody (base : Nat) (cs : List Char) : Except Error Nat :=
  let body := cs.takeWhile (isBodyChar base)
  let rest := cs.dropWhile (isBodyChar base)
  let ds := body.filterMap (digitValue? base)
  if body.head? = some '_' || !wellSpaced body then .error .malformed
  else if !isUnlimited base && maxDigits < ds.length then .error (.tooLong ds.length)
  else if rest.all CharClass.isBlank then .ok (Numeral.ofDigits base ds)
  else .error .malformed

/-- What is left of a numeral in base sixteen after its base mark. -/
def dropBaseMark (base : Nat) : List Char → List Char
  | '0' :: 'x' :: '_' :: rest => if base = 16 then rest else '0' :: 'x' :: '_' :: rest
  | '0' :: 'X' :: '_' :: rest => if base = 16 then rest else '0' :: 'X' :: '_' :: rest
  | '0' :: 'x' :: rest => if base = 16 then rest else '0' :: 'x' :: rest
  | '0' :: 'X' :: rest => if base = 16 then rest else '0' :: 'X' :: rest
  | cs => cs

/-- The integer that a text denotes in the given base. -/
def read (base : Nat) (cs : List Char) : Except Error Int :=
  match cs.dropWhile CharClass.isBlank with
  | '-' :: rest => (readBody base (dropBaseMark base rest)).map fun n => -(n : Int)
  | '+' :: rest => (readBody base (dropBaseMark base rest)).map fun n => (n : Int)
  | rest => (readBody base (dropBaseMark base rest)).map fun n => (n : Int)

end IntLiteral

end Chip8
