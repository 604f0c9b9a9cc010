import Chip8.Document.Calendar
import Chip8.Text.IntLiteral
import Chip8.Text.Quoted

/-!
# Document errors

Why a YAML text has no value. A text with a fault is refused without a message; integers and dates
that have the right form and no value are refused with one. Two limits have no message either: that
of floating-point numbers, and that of nesting.
-/

namespace Chip8

namespace IntLiteral

/-- The greatest number of characters of a refused text that its message shows, quotes included. -/
abbrev shownLength : Nat := 200

/-- The message for a text that is refused as an integer in the given base. -/
def Error.message (base : Nat) (text : List Char) : Error → String
  | .malformed =>
    "invalid literal for int() with base " ++ Numeral.decimal base ++ ": " ++
      String.ofList ((Quoted.text text).take shownLength)
  | .tooLong count =>
    "Exceeds the limit (" ++ Numeral.decimal maxDigits ++
      " digits) for integer string conversion: value has " ++ Numeral.decimal count ++
      " digits; use sys.set_int_max_str_digits() to increase the limit"

end IntLiteral

namespace Yaml

/-- Why a text has no value. -/
inductive Error where
  /-- The text is no document, or an element of it has no value for another reason than these. -/
  | malformed
  /-- A number in the given base has no value. -/
  | number (base : Nat) (text : List Char) (reason : IntLiteral.Error)
  /-- A date or instant has a field out of its range. -/
  | calendar (reason : CalendarError)
  /-- A place of a sexagesimal number with a point weighs more than any floating-point number. -/
  | weightTooLarge
  /-- Collections lie in too many others. -/
  | nestedTooDeeply
  deriving DecidableEq, Repr

/-- The message of an error; only numbers without a value and dates give one. -/
def Error.message? : Error → Option String
  | .malformed => none
  | .number base text reason => some (reason.message base text)
  | .calendar reason => some reason.message
  | .weightTooLarge => none
  | .nestedTooDeeply => none

end Yaml

end Chip8
